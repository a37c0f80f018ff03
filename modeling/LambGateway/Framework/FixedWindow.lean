import Mathlib.Data.List.Induction

/-!
# Counters in a fixed window

A counter is made by its first increment, counts until it expires, and is made again by the next
increment. The windows of a history of increments are given by its times alone; a counter that
expires at the end of its window holds the number of increments in the current window.
-/

namespace Framework

/-- The value of a key with its expiry time, if it has one, and the time of the command that made
the key. -/
structure Counter where
  count : Nat
  created : Nat
  expiry : Option Nat
deriving DecidableEq

/-- The counter a command finds at a time: a key that has expired is gone. -/
def liveCounter (now : Nat) (entry : Option Counter) : Option Counter :=
  entry.filter fun c => c.expiry.all fun e => now < e

/-- `INCRBY 1`. -/
def incrby (now : Nat) (entry : Option Counter) : Counter :=
  match liveCounter now entry with
  | some c => { c with count := c.count + 1 }
  | none => ⟨1, now, none⟩

/-- `EXPIRE` on a key that exists. -/
def expire (now lifetime : Nat) (c : Counter) : Counter :=
  { c with expiry := some (now + lifetime) }

/-- The first increment sets the expiry, later ones leave it. -/
def countCall (lifetime now : Nat) (entry : Option Counter) : Counter :=
  let c := incrby now entry
  if c.count = 1 then expire now lifetime c else c

/-- When the last window of a history opened: a time after its window opens the next one. -/
def opening (lifetime : Nat) (times : List Nat) : Option Nat :=
  times.foldl (fun o t => match o with
    | some o => if t < o + lifetime then some o else some t
    | none => some t) none

/-- The times of a history in the window that is current at a time. -/
def inWindow (lifetime : Nat) (times : List Nat) (now : Nat) : List Nat :=
  match opening lifetime times with
  | some o => if now < o + lifetime then times.filter (o ≤ ·) else []
  | none => []

/-- An entry holds the count of the last window of a history and expires when the window ends. -/
def Tracks (lifetime : Nat) (times : List Nat) (entry : Option Counter) : Prop :=
  match opening lifetime times with
  | some o => o ∈ times ∧ (∀ t ∈ times, t < o + lifetime) ∧
      ∃ c, entry = some c ∧ c.count = (times.filter (o ≤ ·)).length ∧
        c.expiry = some (o + lifetime)
  | none => times = [] ∧ entry = none

variable {lifetime now : Nat} {times : List Nat} {entry : Option Counter}

theorem incrby_live {c : Counter} {e : Nat} (he : c.expiry = some e) (hnow : now < e) :
    incrby now (some c) = { c with count := c.count + 1 } := by
  have hlive : liveCounter now (some c) = some c := by
    rw [liveCounter, Option.filter_some, he]
    exact if_pos (decide_eq_true hnow)
  simp only [incrby, hlive]

theorem incrby_expired {c : Counter} {e : Nat} (he : c.expiry = some e) (hnow : ¬ now < e) :
    incrby now (some c) = ⟨1, now, none⟩ := by
  have hgone : liveCounter now (some c) = none := by
    rw [liveCounter, Option.filter_some, he]
    exact if_neg (by simpa using hnow)
  simp only [incrby, hgone]

theorem opening_append (lifetime : Nat) (times : List Nat) (t : Nat) :
    opening lifetime (times ++ [t]) = match opening lifetime times with
      | some o => if t < o + lifetime then some o else some t
      | none => some t :=
  List.foldl_append ..

theorem tracks_nil (lifetime : Nat) : Tracks lifetime [] none := ⟨rfl, rfl⟩

/-- The increment finds as many counts as the current window has times. -/
theorem Tracks.incrby_count (h : Tracks lifetime times entry) (now : Nat) :
    (incrby now entry).count = (inWindow lifetime times now).length + 1 := by
  unfold Tracks at h
  unfold inWindow
  cases ho : opening lifetime times with
  | none =>
    simp only [ho] at h ⊢
    rw [h.2]
    rfl
  | some o =>
    simp only [ho] at h ⊢
    obtain ⟨-, -, c, rfl, hcount, hexpiry⟩ := h
    by_cases hnow : now < o + lifetime
    · rw [incrby_live hexpiry hnow, if_pos hnow, hcount]
    · rw [incrby_expired hexpiry hnow, if_neg hnow]
      rfl

/-- A new key is made by the call that opens a window; the other calls of the window find it. -/
theorem Tracks.countCall (h : Tracks lifetime times entry) (hlife : 0 < lifetime)
    (hsorted : ∀ t ∈ times, t ≤ now) :
    Tracks lifetime (times ++ [now]) (some (countCall lifetime now entry)) := by
  unfold Tracks at h ⊢
  rw [opening_append]
  cases ho : opening lifetime times with
  | none =>
    simp only [ho] at h
    obtain ⟨rfl, rfl⟩ := h
    refine ⟨List.mem_singleton_self now, fun t ht => ?_, _, rfl, ?_, rfl⟩
    · rw [List.mem_singleton.mp ht]
      omega
    · simp [Framework.countCall, incrby, liveCounter, expire]
  | some o =>
    simp only [ho] at h ⊢
    obtain ⟨hmem, hlt, c, rfl, hcount, hexpiry⟩ := h
    by_cases hnow : now < o + lifetime
    · -- the window is still open, so the key is not a new one
      have hpos : 0 < (times.filter (o ≤ ·)).length :=
        List.length_pos_of_mem (List.mem_filter.mpr ⟨hmem, decide_eq_true (Nat.le_refl o)⟩)
      have hcall : Framework.countCall lifetime now (some c) = { c with count := c.count + 1 } := by
        rw [Framework.countCall, incrby_live hexpiry hnow]
        apply if_neg
        show c.count + 1 ≠ 1
        omega
      rw [if_pos hnow, hcall]
      refine ⟨List.mem_append_left _ hmem, fun t ht => ?_, _, rfl, ?_, hexpiry⟩
      · rcases List.mem_append.mp ht with ht | ht
        · exact hlt t ht
        · rwa [List.mem_singleton.mp ht]
      · have hin : [now].filter (o ≤ ·) = [now] :=
          List.filter_cons_of_pos (decide_eq_true (hsorted o hmem))
        rw [List.filter_append, hin, List.length_append, hcount]
        rfl
    · -- the window is over: no earlier time is in the new one
      have hold : times.filter (now ≤ ·) = [] := by
        apply List.filter_eq_nil_iff.mpr
        intro t ht
        have := hlt t ht
        simp only [decide_eq_true_eq]
        omega
      have hcall : Framework.countCall lifetime now (some c) = ⟨1, now, some (now + lifetime)⟩ := by
        rw [Framework.countCall, incrby_expired hexpiry hnow]
        rfl
      rw [if_neg hnow, hcall]
      refine ⟨List.mem_append_right _ (List.mem_singleton_self now), fun t ht => ?_, _, rfl, ?_,
        rfl⟩
      · rcases List.mem_append.mp ht with ht | ht
        · have := hlt t ht
          omega
        · rw [List.mem_singleton.mp ht]
          omega
      · have hin : [now].filter (now ≤ ·) = [now] :=
          List.filter_cons_of_pos (decide_eq_true (Nat.le_refl now))
        rw [List.filter_append, hold, hin]
        rfl

/-- A history of calls at non-decreasing times, from a key that does not exist. -/
theorem tracks_foldl (hlife : 0 < lifetime) (hsorted : times.Pairwise (· ≤ ·)) :
    Tracks lifetime times (times.foldl (fun entry t => some (countCall lifetime t entry)) none) := by
  induction times using List.reverseRecOn with
  | nil => exact tracks_nil lifetime
  | append_singleton times t ih =>
    obtain ⟨hs, -, hle⟩ := List.pairwise_append.mp hsorted
    rw [List.foldl_append]
    apply (ih hs).countCall hlife
    exact fun t' ht' => hle t' ht' t (List.mem_singleton_self t)

end Framework
