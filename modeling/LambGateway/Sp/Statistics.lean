import LambGateway.Framework.Transition
import Mathlib.Algebra.BigOperators.Group.List.Basic
import Mathlib.Algebra.GroupWithZero.Nat

/-!
# Statistics of a gateway

The sender and the work loop of sp count in memory, and every few seconds the counts are copied,
cleared and written to the database as a row. A row that cannot be written is only logged.
-/

namespace LambGateway.Sp.Statistics

open Framework

/-- `lamb_statistical_t` -/
@[ext]
structure LambStatistical where
  submit : Nat
  delivrd : Nat
  expired : Nat
  deleted : Nat
  undeliv : Nat
  acceptd : Nat
  unknown : Nat
  rejectd : Nat
  deriving DecidableEq

/-- `lamb_clean_statistical` -/
def lambCleanStatistical (_stat : LambStatistical) : LambStatistical := ⟨0, 0, 0, 0, 0, 0, 0, 0⟩

def LambStatistical.zero : LambStatistical := ⟨0, 0, 0, 0, 0, 0, 0, 0⟩

/-- `lamb_check_statistical` -/
def lambCheckStatistical (status : Int32) (stat : LambStatistical) : LambStatistical :=
  if status = 1 then { stat with delivrd := stat.delivrd + 1 }
  else if status = 2 then { stat with expired := stat.expired + 1 }
  else if status = 3 then { stat with deleted := stat.deleted + 1 }
  else if status = 4 then { stat with undeliv := stat.undeliv + 1 }
  else if status = 5 then { stat with acceptd := stat.acceptd + 1 }
  else if status = 6 then { stat with unknown := stat.unknown + 1 }
  else if status = 7 then { stat with rejectd := stat.rejectd + 1 }
  else stat

/-- `lamb_stat_loop` writes a row only if something was counted. -/
def LambStatistical.any (curr : LambStatistical) : Bool :=
  0 < curr.submit || 0 < curr.delivrd || 0 < curr.expired || 0 < curr.deleted ||
    0 < curr.undeliv || 0 < curr.acceptd || curr.unknown != 0 || 0 < curr.rejectd

inductive Counter where
  | submit
  | delivrd
  | expired
  | deleted
  | undeliv
  | acceptd
  | unknown
  | rejectd
  deriving DecidableEq

def LambStatistical.get (stat : LambStatistical) : Counter → Nat
  | .submit => stat.submit
  | .delivrd => stat.delivrd
  | .expired => stat.expired
  | .deleted => stat.deleted
  | .undeliv => stat.undeliv
  | .acceptd => stat.acceptd
  | .unknown => stat.unknown
  | .rejectd => stat.rejectd

/-- What is counted: a submit, or a report with its status. -/
inductive Event where
  | submit
  | report (status : Int32)
  deriving DecidableEq

/-- The counter under which an event belongs. -/
def Event.counter : Event → Option Counter
  | .submit => some .submit
  | .report status =>
    if status = 1 then some .delivrd
    else if status = 2 then some .expired
    else if status = 3 then some .deleted
    else if status = 4 then some .undeliv
    else if status = 5 then some .acceptd
    else if status = 6 then some .unknown
    else if status = 7 then some .rejectd
    else none

/-- How far a flush has come. While it holds the lock it has copied the counts and not yet cleared
them. -/
inductive Flush where
  | idle
  | copied (curr : LambStatistical)
  | cleared (curr : LambStatistical)

structure State where
  statistical : LambStatistical
  flush : Flush
  rows : List LambStatistical
  events : List Event

def State.init : State := ⟨.zero, .idle, [], []⟩

inductive Action where
  | count (e : Event)
  | copy
  | clear
  /-- `lamb_write_statistical`, if there is something to write. -/
  | write (executed : Bool)

def count (statistical : LambStatistical) : Event → LambStatistical
  | .submit => { statistical with submit := statistical.submit + 1 }
  | .report status => lambCheckStatistical status statistical

/-- The loops of sp: who counts takes the lock. -/
def step (s : State) : Action → Option State
  | .count e =>
    match s.flush with
    | .copied _ => none
    | .idle | .cleared _ =>
      some { s with statistical := count s.statistical e, events := s.events ++ [e] }
  | .copy =>
    match s.flush with
    | .idle => some { s with flush := .copied s.statistical }
    | .copied _ | .cleared _ => none
  | .clear =>
    match s.flush with
    | .copied curr =>
      some { s with statistical := lambCleanStatistical s.statistical, flush := .cleared curr }
    | .idle | .cleared _ => none
  | .write executed =>
    match s.flush with
    | .cleared curr =>
      some
        { s with
          flush := .idle
          rows := if curr.any && executed then s.rows ++ [curr] else s.rows }
    | .idle | .copied _ => none

/-- What a flush has taken out of memory and not written yet. -/
def Flush.pending : Flush → LambStatistical
  | .cleared curr => curr
  | .idle | .copied _ => .zero

/-- The events of a counter so far. -/
def counted (events : List Event) (c : Counter) : Nat := events.countP fun e => e.counter = some c

/-- Rows, memory and the pending copy add up to what was counted. -/
def Conserved (s : State) : Prop :=
  ∀ c, (s.rows.map fun row => row.get c).sum + s.statistical.get c + s.flush.pending.get c =
    counted s.events c

/-- A row that is due is written. -/
def RowWritten (s : State) : Action → Prop
  | .write false => ∀ curr, s.flush = .cleared curr → curr.any = false
  | _ => True

/-- The copy under the lock is what the memory holds. -/
def CopyCurrent (s : State) : Prop := ∀ curr, s.flush = .copied curr → curr = s.statistical

/-! ## One step -/

@[simp] theorem zero_get (c : Counter) : LambStatistical.zero.get c = 0 := by
  cases c <;> rfl

/-- An event steps its own counter, if it has one, and no other. -/
theorem count_get (stat : LambStatistical) (e : Event) (c : Counter) :
    (count stat e).get c = stat.get c + if e.counter = some c then 1 else 0 := by
  cases e with
  | submit => cases c <;> rfl
  | report status =>
    simp only [count, lambCheckStatistical, Event.counter]
    -- one split for each of the seven statuses that are counted
    iterate 7
      split
      · cases c <;> rfl
    cases c <;> rfl

theorem counted_append (events : List Event) (e : Event) (c : Counter) :
    counted (events ++ [e]) c = counted events c + if e.counter = some c then 1 else 0 := by
  rw [counted, List.countP_append, List.countP_singleton]
  simp only [decide_eq_true_eq]
  rfl

/-- There is nothing to write if and only if every counter is zero. -/
theorem any_eq_false_iff (stat : LambStatistical) :
    stat.any = false ↔ ∀ c, stat.get c = 0 := by
  constructor
  · intro h c
    simp only [LambStatistical.any, Bool.or_eq_false_iff, decide_eq_false_iff_not, Nat.not_lt,
      Nat.le_zero, bne_eq_false_iff_eq] at h
    obtain ⟨⟨⟨⟨⟨⟨⟨h1, h2⟩, h3⟩, h4⟩, h5⟩, h6⟩, h7⟩, h8⟩ := h
    cases c <;> assumption
  · intro h
    have h1 : stat.submit = 0 := h .submit
    have h2 : stat.delivrd = 0 := h .delivrd
    have h3 : stat.expired = 0 := h .expired
    have h4 : stat.deleted = 0 := h .deleted
    have h5 : stat.undeliv = 0 := h .undeliv
    have h6 : stat.acceptd = 0 := h .acceptd
    have h7 : stat.unknown = 0 := h .unknown
    have h8 : stat.rejectd = 0 := h .rejectd
    simp [LambStatistical.any, h1, h2, h3, h4, h5, h6, h7, h8]

theorem copyCurrent_step {s t : State} {a : Action} (h : step s a = some t) : CopyCurrent t := by
  intro curr hcurr
  cases a with
  | count e =>
    simp only [step] at h
    split at h
    · exact nomatch h
    · next hidle =>
      obtain rfl := Option.some.inj h
      exact nomatch hidle.symm.trans hcurr
    · next hcleared =>
      obtain rfl := Option.some.inj h
      exact nomatch hcleared.symm.trans hcurr
  | copy =>
    simp only [step] at h
    split at h <;> cases h
    cases hcurr
    rfl
  | clear =>
    simp only [step] at h
    split at h <;> cases h
    exact nomatch hcurr
  | write executed =>
    simp only [step] at h
    split at h <;> cases h
    exact nomatch hcurr

theorem conserved_count {s t : State} {e : Event} (hs : Conserved s)
    (h : step s (.count e) = some t) : Conserved t := by
  have hall : Conserved
      { s with statistical := count s.statistical e, events := s.events ++ [e] } := by
    intro c
    have hold := hs c
    change (s.rows.map fun row => row.get c).sum + (count s.statistical e).get c +
      s.flush.pending.get c = counted (s.events ++ [e]) c
    rw [count_get, counted_append]
    omega
  simp only [step] at h
  split at h <;> cases h <;> exact hall

theorem conserved_copy {s t : State} (hs : Conserved s) (h : step s .copy = some t) :
    Conserved t := by
  simp only [step] at h
  split at h <;> cases h
  next hidle =>
  intro c
  have hold := hs c
  rw [hidle] at hold
  exact hold

theorem conserved_clear {s t : State} (hcopy : CopyCurrent s) (hs : Conserved s)
    (h : step s .clear = some t) : Conserved t := by
  simp only [step] at h
  split at h <;> cases h
  next curr hcopied =>
  obtain rfl := hcopy curr hcopied
  intro c
  have hold := hs c
  rw [hcopied] at hold
  change _ + s.statistical.get c + LambStatistical.zero.get c = _ at hold
  change _ + LambStatistical.zero.get c + s.statistical.get c = _
  rw [zero_get] at hold ⊢
  omega

theorem conserved_write_iff {s : State} (hs : Conserved s) (executed : Bool) :
    (∀ t, step s (.write executed) = some t → Conserved t) ↔ RowWritten s (.write executed) := by
  cases hflush : s.flush with
  | idle =>
    apply iff_of_true
    · intro t h
      rw [step, hflush] at h
      exact nomatch h
    · cases executed with
      | true => trivial
      | false => exact fun curr hcurr => nomatch hflush.symm.trans hcurr
  | copied curr =>
    apply iff_of_true
    · intro t h
      rw [step, hflush] at h
      exact nomatch h
    · cases executed with
      | true => trivial
      | false => exact fun curr hcurr => nomatch hflush.symm.trans hcurr
  | cleared curr =>
    have hstep : step s (.write executed) = some
        { s with
          flush := .idle
          rows := if curr.any && executed then s.rows ++ [curr] else s.rows } := by
      rw [step, hflush]
    have hold (c : Counter) : (s.rows.map fun row => row.get c).sum + s.statistical.get c +
        curr.get c = counted s.events c := by
      have hc := hs c
      rwa [hflush] at hc
    -- without the row the sum is what it was if and only if the copy is zero
    have hlost : Conserved { s with flush := .idle } ↔ curr.any = false := by
      rw [any_eq_false_iff]
      apply forall_congr'
      intro c
      have hc := hold c
      change _ + _ + LambStatistical.zero.get c = _ ↔ _
      rw [zero_get]
      change (s.rows.map fun row => row.get c).sum + s.statistical.get c + 0 =
        counted s.events c ↔ _
      omega
    rw [hstep]
    simp only [Option.some.injEq, forall_eq']
    cases executed with
    | true =>
      apply iff_of_true _ trivial
      cases hany : curr.any with
      | false => exact hlost.mpr hany
      | true =>
        intro c
        have hc := hold c
        change ((s.rows ++ [curr]).map fun row => row.get c).sum + s.statistical.get c +
          LambStatistical.zero.get c = counted s.events c
        rw [List.map_append, List.sum_append, List.map_singleton, List.sum_singleton, zero_get]
        omega
    | false =>
      rw [Bool.and_false]
      apply hlost.trans
      constructor
      · intro hany other hother
        obtain rfl := Flush.cleared.inj (hflush.symm.trans hother)
        exact hany
      · exact fun h => h curr hflush

/-- A count, a copy and a clearing keep the sum; a write does if its row is written. -/
theorem conserved_step_iff {s : State} (hcopy : CopyCurrent s) (hs : Conserved s) (a : Action) :
    (∀ t, step s a = some t → Conserved t) ↔ RowWritten s a := by
  cases a with
  | count e => exact iff_of_true (fun _ h => conserved_count hs h) trivial
  | copy => exact iff_of_true (fun _ h => conserved_copy hs h) trivial
  | clear => exact iff_of_true (fun _ h => conserved_clear hcopy hs h) trivial
  | write executed => exact conserved_write_iff hs executed

/-! ## Runs -/

theorem conserved_init : Conserved State.init := by
  intro c
  cases c <;> rfl

/-- In all states of a run rows, memory and the pending copy add up to what was counted if and
only if every row that was due was written. -/
theorem statistics_conserved_iff (as : List Action) :
    (∀ bs, bs <+: as → ∀ t, exec step State.init bs = some t → Conserved t) ↔
      Guarded step RowWritten State.init as := by
  have hinv {s t : State} {a : Action} (_ : CopyCurrent s) (h : step s a = some t)
      (_ : Conserved t) : CopyCurrent t :=
    copyCurrent_step h
  apply forall_states_iff_guarded_of_invariant hinv
  · exact fun hcopy hs a => conserved_step_iff hcopy hs a
  · exact fun curr hcurr => nomatch hcurr
  · exact conserved_init

/-- One submit is counted, and its row is not written. -/
theorem row_lost :
    ¬ ∀ as bs : List Action, bs <+: as → ∀ t, exec step State.init bs = some t → Conserved t := by
  intro h
  have hend := h [.count .submit, .copy, .clear, .write false] _ (List.prefix_refl _) _ rfl
  exact absurd (hend .submit) (by decide)

end LambGateway.Sp.Statistics
