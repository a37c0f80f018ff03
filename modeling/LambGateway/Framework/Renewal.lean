import LambGateway.Framework.Transition
import Mathlib.Logic.Relation

/-!
# Copies that are renewed on a flag

Writers change a source, and raise a flag once they have done so. A reader keeps a copy: it looks
at the flag, takes it down, and if the flag was up when it looked, it renews the copy part by
part. The flag can be raised between the look and the taking down, and the source can change at
any time, also while the copy is being renewed.
-/

namespace Framework.Renewal

variable {ι σ κ : Type*}

/-- Where the reader is in its round. -/
inductive Reader (ι : Type*) where
  | idle
  | looked (up : Bool)
  | renewing (parts : List ι)

def Reader.WillRenew (i : ι) : Reader ι → Prop
  | idle => False
  | looked up => up = true
  | renewing parts => i ∈ parts

/-- The parts of a copy, in the order in which they are renewed, each of them with what a renewal
makes of the copy and when it agrees with the source. -/
structure Parts (ι σ κ : Type*) where
  order : List ι
  Renews : ι → σ → κ → κ → Prop
  Current : ι → σ → κ → Prop
  current_of_renews {i : ι} {source : σ} {copy copy' : κ} :
    Renews i source copy copy' → Current i source copy'
  keeps {front behind : List ι} {i j : ι} {source : σ} {copy copy' : κ} :
    order = front ++ i :: behind → j ∈ front → Current j source copy →
      Renews i source copy copy' → Current j source copy'

/-- `owing` says that some writer has changed the source and is to raise the flag. -/
structure State (ι σ κ : Type*) where
  source : σ
  copy : κ
  up : Bool
  owing : Bool
  reader : Reader ι

/-- A raised flag stands for all changes so far, so that nothing is owed for them any more. -/
inductive Step (parts : Parts ι σ κ) : State ι σ κ → State ι σ κ → Prop
  | change {s : State ι σ κ} (source : σ) : Step parts s { s with source, owing := true }
  | raise {s : State ι σ κ} (owing : Bool) : Step parts s { s with up := true, owing }
  | look {s : State ι σ κ} (hidle : s.reader = .idle) :
    Step parts s { s with reader := .looked s.up }
  | takeDown {s : State ι σ κ} (hlooked : s.reader = .looked true) :
    Step parts s { s with up := false, reader := .renewing parts.order }
  | pass {s : State ι σ κ} (hlooked : s.reader = .looked false) (hdown : s.up = false) :
    Step parts s { s with reader := .idle }
  | renew {s : State ι σ κ} {i : ι} {rest : List ι} {copy : κ}
    (hrenewing : s.reader = .renewing (i :: rest)) (hrenews : parts.Renews i s.source s.copy copy) :
    Step parts s { s with copy, reader := .renewing rest }
  | finish {s : State ι σ κ} (hrenewing : s.reader = .renewing []) :
    Step parts s { s with reader := .idle }

variable {parts : Parts ι σ κ} {s t : State ι σ κ}

/-- The part agrees with the source, or the flag is up, or somebody is to raise it, or the reader
is to renew the part. -/
def Settled (parts : Parts ι σ κ) (s : State ι σ κ) (i : ι) : Prop :=
  parts.Current i s.source s.copy ∨ s.up = true ∨ s.owing = true ∨ s.reader.WillRenew i

/-- No change is lost, and the parts still to renew are the last ones. -/
structure Inv (parts : Parts ι σ κ) (s : State ι σ κ) : Prop where
  settled : ∀ i ∈ parts.order, Settled parts s i
  suffix : ∀ rest, s.reader = .renewing rest → ∃ front, parts.order = front ++ rest

theorem inv_init {source : σ} {copy : κ} (h : ∀ i ∈ parts.order, parts.Current i source copy)
    (up : Bool) : Inv parts ⟨source, copy, up, false, .idle⟩ where
  settled i hi := .inl (h i hi)
  suffix _ hrest := by cases hrest

/-- A part that is not the one renewed has come before it, and is kept. -/
theorem settled_renew (hs : Inv parts s) {i : ι} {rest : List ι} {copy : κ}
    (hrenewing : s.reader = .renewing (i :: rest)) (hrenews : parts.Renews i s.source s.copy copy)
    {j : ι} (hj : j ∈ parts.order) :
    Settled parts { s with copy, reader := .renewing rest } j := by
  obtain ⟨front, horder⟩ := hs.suffix _ hrenewing
  by_cases hji : j = i
  · rw [hji]
    exact .inl (parts.current_of_renews hrenews)
  by_cases hrest : j ∈ rest
  · exact .inr (.inr (.inr hrest))
  have hfront : j ∈ front := by
    rw [horder] at hj
    simpa [hji, hrest] using hj
  rcases hs.settled j hj with hcurrent | hup | howing | hwill
  · exact .inl (parts.keeps horder hfront hcurrent hrenews)
  · exact .inr (.inl hup)
  · exact .inr (.inr (.inl howing))
  · rw [hrenewing] at hwill
    rcases List.mem_cons.mp hwill with h | h
    · exact absurd h hji
    · exact absurd h hrest

theorem inv_step (hs : Inv parts s) (h : Step parts s t) : Inv parts t := by
  cases h with
  | change source => exact ⟨fun i _ => .inr (.inr (.inl rfl)), hs.suffix⟩
  | raise owing => exact ⟨fun i _ => .inr (.inl rfl), hs.suffix⟩
  | look hidle =>
    refine ⟨fun i hi => ?_, fun rest hrest => by cases hrest⟩
    rcases hs.settled i hi with hcurrent | hup | howing | hwill
    · exact .inl hcurrent
    · exact .inr (.inl hup)
    · exact .inr (.inr (.inl howing))
    · rw [hidle] at hwill
      exact hwill.elim
  | takeDown hlooked =>
    refine ⟨fun i hi => .inr (.inr (.inr hi)), ?_⟩
    rintro rest ⟨⟩
    exact ⟨[], rfl⟩
  | pass hlooked hdown =>
    refine ⟨fun i hi => ?_, fun rest hrest => by cases hrest⟩
    rcases hs.settled i hi with hcurrent | hup | howing | hwill
    · exact .inl hcurrent
    · rw [hdown] at hup
      cases hup
    · exact .inr (.inr (.inl howing))
    · rw [hlooked] at hwill
      cases hwill
  | @renew i rest copy hrenewing hrenews =>
    refine ⟨fun j hj => settled_renew hs hrenewing hrenews hj, ?_⟩
    rintro rest' ⟨⟩
    obtain ⟨front, horder⟩ := hs.suffix _ hrenewing
    exact ⟨front ++ [i], by simpa using horder⟩
  | finish hrenewing =>
    refine ⟨fun i hi => ?_, fun rest hrest => by cases hrest⟩
    rcases hs.settled i hi with hcurrent | hup | howing | hwill
    · exact .inl hcurrent
    · exact .inr (.inl hup)
    · exact .inr (.inr (.inl howing))
    · rw [hrenewing] at hwill
      cases hwill

/-- What every step keeps, every run keeps. -/
theorem inv_run (hs : Inv parts s) (h : Relation.ReflTransGen (Step parts) s t) : Inv parts t := by
  induction h with
  | refl => exact hs
  | tail _ hstep ih => exact inv_step ih hstep

/-- When nothing is going on, every part agrees with the source. -/
theorem current_of_quiet (hs : Inv parts s) (hdown : s.up = false) (howing : s.owing = false)
    (hidle : s.reader = .idle) {i : ι} (hi : i ∈ parts.order) :
    parts.Current i s.source s.copy := by
  rcases hs.settled i hi with hcurrent | h | h | h
  · exact hcurrent
  · rw [hdown] at h
    cases h
  · rw [howing] at h
    cases h
  · rw [hidle] at h
    exact h.elim

/-- A system whose guarded steps are runs of the flag and the copy, seen through `view`. -/
theorem inv_exec {τ α : Type*} {step : τ → α → Option τ} {guard : τ → α → Prop}
    {Good : τ → Prop} {view : τ → State ι σ κ}
    (hgood : ∀ x a y, Good x → guard x a → step x a = some y → Good y)
    (hview : ∀ x a y, Good x → guard x a → step x a = some y →
      Relation.ReflTransGen (Step parts) (view x) (view y))
    {x y : τ} {as : List α} (hx : Good x) (hinv : Inv parts (view x))
    (hguard : Guarded step guard x as) (hexec : exec step x as = some y) :
    Good y ∧ Inv parts (view y) := by
  let Kept (x : τ) : Prop := Good x ∧ Inv parts (view x)
  have hstep : ∀ x a y, Kept x → guard x a → step x a = some y → Kept y := by
    intro x a y ⟨hx, hinv⟩ ha hy
    exact ⟨hgood x a y hx ha hy, inv_run hinv (hview x a y hx ha hy)⟩
  exact exec_invariant_of_guarded hstep ⟨hx, hinv⟩ hguard hexec

end Framework.Renewal
