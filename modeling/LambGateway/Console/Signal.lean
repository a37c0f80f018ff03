import LambGateway.Framework.Decimal
import LambGateway.Framework.Transition
import Mathlib.Logic.Function.Basic

/-!
# Control signals

The console and the web write a number into the field `signal` of a process's hash. The process
polls the field: it reads it with one command and sets it to 0 with a second one, and other
clients' commands can fall between the two.
-/

namespace LambGateway.Console

open Framework

/-- The programs that poll for signals. -/
inductive Program where
  | client
  | server
  | gateway
  deriving DecidableEq

def Program.type : Program → Bytes
  | client => ascii "client"
  | server => ascii "server"
  | gateway => ascii "gateway"

/-- A process, by its program and its number. -/
structure Target where
  program : Program
  id : Int32
  deriving DecidableEq

/-- The key of the hash: `%s.%d`. -/
def Target.key (target : Target) : Bytes :=
  target.program.type ++ 46 :: decimalInt target.id.toInt

theorem Program.head_type (program : Program) (rest : Bytes) :
    (program.type ++ rest).head? = program.type.head? := by
  cases program <;> rfl

theorem Program.eq_of_head {p q : Program} (h : p.type.head? = q.type.head?) : p = q := by
  cases p <;> cases q <;> first | rfl | exact absurd h (by decide)

theorem Target.key_injective : Function.Injective Target.key := by
  rintro ⟨p, x⟩ ⟨q, y⟩ h
  have hhead := congrArg List.head? h
  simp only [key, Program.head_type] at hhead
  obtain rfl := Program.eq_of_head hhead
  have hrest := List.append_cancel_left h
  obtain rfl := append_decimalInt_injective [46] hrest
  rfl

/-- A value that means something to the process. -/
abbrev Signal := { v : Int32 // v ≠ 0 }

/-- The value that `lamb_check_signal` takes from the reply to `HGET`. -/
def signalOf : Option Bytes → Int32
  | some str => if 0 < str.length then atoi str else 0
  | none => 0

/-- Between the two commands of `lamb_check_signal`: what `HGET` has given, and the number of the
write that it comes from. -/
inductive Poll where
  | idle
  | polled (signal : Int32) (write : Option Nat)

/-- The field `signal` of every hash, and each process's poll. The writes are numbered in their
order; `standing` is the one that the field holds, and the last two are those that a poll has
returned, with the value, and those that a later write has replaced. -/
structure State where
  signal : Bytes → Option Bytes
  poll : Target → Poll
  writes : List (Target × Signal)
  standing : Target → Option Nat
  returned : List (Nat × Int32)
  overwritten : List Nat

def State.init (signal : Bytes → Option Bytes) : State where
  signal := signal
  poll _ := .idle
  writes := []
  standing _ := none
  returned := []
  overwritten := []

inductive Action where
  /-- The console's `lamb_set_signal`. -/
  | set (target : Target) (v : Signal)
  /-- The web's `hSet`. -/
  | hset (target : Target) (v : Signal)
  | hget (target : Target)
  | clear (target : Target)

/-- `HSET %s.%d signal %d`. -/
def State.write (s : State) (target : Target) (v : Signal) : State :=
  { s with
    signal := Function.update s.signal target.key (some (decimalInt v.val.toInt))
    writes := s.writes ++ [(target, v)]
    standing := Function.update s.standing target (some s.writes.length)
    overwritten := s.overwritten ++ (s.standing target).toList }

def lambSetSignal (s : State) (target : Target) (v : Signal) : State :=
  if target.id < 1 then s else s.write target v

/-- `lamb_clear_signal`, after which `lamb_check_signal` returns what it has read. -/
def lambClearSignal (s : State) (target : Target) (signal : Int32) (write : Option Nat) : State :=
  { s with
    signal := Function.update s.signal target.key (some (decimalInt 0))
    poll := Function.update s.poll target .idle
    standing := Function.update s.standing target none
    returned := s.returned ++ write.toList.map fun n => (n, signal) }

def step (s : State) : Action → Option State
  | .set target v => some (lambSetSignal s target v)
  | .hset target v => some (s.write target v)
  | .hget target =>
    match s.poll target with
    | .idle => some
      { s with
        poll := Function.update s.poll target
          (.polled (signalOf (s.signal target.key)) (s.standing target)) }
    | .polled _ _ => none
  | .clear target =>
    match s.poll target with
    | .idle => none
    | .polled signal write => some (lambClearSignal s target signal write)

/-! ## What becomes of a write -/

/-- The value is in the field for the next poll to read. -/
def Stands (s : State) (n : Nat) (target : Target) (v : Signal) : Prop :=
  s.standing target = some n ∧ s.signal target.key = some (decimalInt v.val.toInt)

/-- Every value written has been returned by a poll, has been replaced by a later value, or
stands in its field. -/
def NeverErased (s : State) : Prop :=
  ∀ n target v, s.writes[n]? = some (target, v) →
    (n, v.val) ∈ s.returned ∨ n ∈ s.overwritten ∨ Stands s n target v

/-- When a poll clears the field, the write that stands there, if any, is the one that the poll
has read. -/
def ClearsWhatItRead (s : State) : Action → Prop
  | .clear target => ∀ signal write, s.poll target = .polled signal write →
      ∀ n, s.standing target = some n → write = some n
  | _ => True

def Unsettled (s : State) (n : Nat) : Prop := n ∉ s.overwritten ∧ ∀ v, (n, v) ∉ s.returned

structure Inv (s : State) : Prop where
  standing : ∀ target n, s.standing target = some n → Unsettled s n ∧
    ∃ v, s.writes[n]? = some (target, v) ∧ s.signal target.key = some (decimalInt v.val.toInt)
  polled : ∀ target signal n, s.poll target = .polled signal (some n) →
    ∃ v, s.writes[n]? = some (target, v) ∧ signal = v.val
  overwritten : ∀ n ∈ s.overwritten, n < s.writes.length
  returned : ∀ p ∈ s.returned, p.1 < s.writes.length

theorem inv_init (signal : Bytes → Option Bytes) : Inv (.init signal) where
  standing _ _ h := by cases h
  polled _ _ _ h := by cases h
  overwritten _ h := by cases h
  returned _ h := by cases h

theorem neverErased_init (signal : Bytes → Option Bytes) : NeverErased (.init signal) := by
  intro n target v h
  cases h

theorem signalOf_decimalInt (i : Int32) : signalOf (some (decimalInt i.toInt)) = i := by
  have hlen : 0 < (decimalInt i.toInt).length := by
    apply List.length_pos_of_ne_nil
    intro hnil
    have hread := scanInt_decimalInt i.toInt
    cases hi : i.toInt with
    | ofNat n =>
      rw [hi] at hnil
      exact decimal_ne_nil n hnil
    | negSucc n =>
      rw [hi] at hnil
      cases hnil
  rw [signalOf, if_pos hlen, atoi_decimalInt]

/-- Writes to one process are not writes to another. -/
theorem write_target {s : State} {n : Nat} {x y : Target} {v w : Signal}
    (hx : s.writes[n]? = some (x, v)) (hy : s.writes[n]? = some (y, w)) : x = y := by
  rw [hx] at hy
  cases hy
  rfl

theorem writes_lt {s : State} {n : Nat} {p : Target × Signal} (h : s.writes[n]? = some p) :
    n < s.writes.length :=
  (List.getElem?_eq_some_iff.mp h).1

/-! ## The commands -/

theorem write_writes {s : State} {target : Target} {v : Signal} {n : Nat} {p : Target × Signal}
    (h : s.writes[n]? = some p) : (s.write target v).writes[n]? = some p := by
  rw [State.write, List.getElem?_append_left (writes_lt h), h]

theorem inv_write {s : State} (hs : Inv s) (target : Target) (v : Signal) :
    Inv (s.write target v) := by
  constructor
  · intro x n hn
    simp only [State.write, Function.update_apply] at hn
    split at hn
    · next heq =>
      subst heq
      cases hn
      refine ⟨⟨?_, ?_⟩, v, ?_, ?_⟩
      · intro hover
        rcases List.mem_append.mp hover with hover | hover
        · exact absurd (hs.overwritten _ hover) (Nat.lt_irrefl _)
        · obtain ⟨-, _, hold, -⟩ := hs.standing x _ (Option.mem_toList.mp hover)
          exact absurd (writes_lt hold) (Nat.lt_irrefl _)
      · exact fun w hreturned => absurd (hs.returned _ hreturned) (Nat.lt_irrefl _)
      · exact List.getElem?_concat_length
      · exact Function.update_self ..
    · next hne =>
      obtain ⟨⟨hover, hreturned⟩, w, hw, hsignal⟩ := hs.standing x n hn
      refine ⟨⟨?_, hreturned⟩, w, write_writes hw, ?_⟩
      · intro hmem
        rcases List.mem_append.mp hmem with hmem | hmem
        · exact hover hmem
        · obtain ⟨-, _, hold, -⟩ := hs.standing target _ (Option.mem_toList.mp hmem)
          exact hne (write_target hw hold)
      · rw [← hsignal]
        exact Function.update_of_ne (Target.key_injective.ne hne) ..
  · intro x signal n hn
    obtain ⟨w, hw, hsignal⟩ := hs.polled x signal n hn
    exact ⟨w, write_writes hw, hsignal⟩
  · intro n hn
    have hlen : (s.write target v).writes.length = s.writes.length + 1 := List.length_append
    rw [hlen]
    rcases List.mem_append.mp hn with hn | hn
    · exact Nat.lt_succ_of_lt (hs.overwritten n hn)
    · obtain ⟨-, _, hold, -⟩ := hs.standing target n (Option.mem_toList.mp hn)
      exact Nat.lt_succ_of_lt (writes_lt hold)
  · intro p hp
    have hlen : (s.write target v).writes.length = s.writes.length + 1 := List.length_append
    rw [hlen]
    exact Nat.lt_succ_of_lt (hs.returned p hp)

theorem neverErased_write {s : State} (hnever : NeverErased s) (target : Target) (v : Signal) :
    NeverErased (s.write target v) := by
  intro n x w hw
  rcases Nat.lt_or_ge n s.writes.length with hlt | hge
  · rw [State.write, List.getElem?_append_left hlt] at hw
    rcases hnever n x w hw with hreturned | hover | ⟨hstanding, hsignal⟩
    · exact .inl hreturned
    · exact .inr (.inl (List.mem_append_left _ hover))
    · by_cases heq : x = target
      · subst heq
        exact .inr (.inl (List.mem_append_right _ (Option.mem_toList.mpr hstanding)))
      · refine .inr (.inr ⟨?_, ?_⟩)
        · rw [← hstanding]
          exact Function.update_of_ne heq ..
        · rw [← hsignal]
          exact Function.update_of_ne (Target.key_injective.ne heq) ..
  · have hn : n = s.writes.length := by
      have hlt := writes_lt hw
      have hlen : (s.write target v).writes.length = s.writes.length + 1 := List.length_append
      omega
    subst hn
    have hnew : (s.write target v).writes[s.writes.length]? = some (target, v) :=
      List.getElem?_concat_length
    rw [hnew] at hw
    cases hw
    exact .inr (.inr ⟨Function.update_self .., Function.update_self ..⟩)

/-- What a write to another process has become is not changed by a poll's second command. -/
theorem inv_clear {s : State} (hs : Inv s) {target : Target} {signal : Int32}
    {write : Option Nat} (hpoll : s.poll target = .polled signal write) :
    Inv (lambClearSignal s target signal write) := by
  have hwrite (p : Nat × Int32) (hp : p ∈ write.toList.map fun n => (n, signal)) :
      ∃ v, s.writes[p.1]? = some (target, v) := by
    obtain ⟨n, hn, rfl⟩ := List.mem_map.mp hp
    obtain rfl := Option.mem_toList.mp hn
    obtain ⟨v, hv, -⟩ := hs.polled target signal n hpoll
    exact ⟨v, hv⟩
  constructor
  · intro x n hn
    simp only [lambClearSignal, Function.update_apply] at hn
    split at hn
    · cases hn
    · next hne =>
      obtain ⟨⟨hover, hreturned⟩, v, hv, hsignal⟩ := hs.standing x n hn
      refine ⟨⟨hover, ?_⟩, v, hv, ?_⟩
      · intro w hmem
        rcases List.mem_append.mp hmem with hmem | hmem
        · exact hreturned w hmem
        · obtain ⟨u, hu⟩ := hwrite _ hmem
          exact hne (write_target hv hu)
      · rw [← hsignal]
        exact Function.update_of_ne (Target.key_injective.ne hne) ..
  · intro x got n hn
    simp only [lambClearSignal, Function.update_apply] at hn
    split at hn
    · cases hn
    · exact hs.polled x got n hn
  · exact hs.overwritten
  · intro p hp
    rcases List.mem_append.mp hp with hp | hp
    · exact hs.returned p hp
    · obtain ⟨v, hv⟩ := hwrite p hp
      exact writes_lt hv

theorem neverErased_clear_iff {s : State} (hs : Inv s) (hnever : NeverErased s)
    {target : Target} {signal : Int32} {write : Option Nat}
    (hpoll : s.poll target = .polled signal write) :
    NeverErased (lambClearSignal s target signal write) ↔
      ∀ n, s.standing target = some n → write = some n := by
  constructor
  · intro h n hn
    obtain ⟨⟨hover, hreturned⟩, v, hv, -⟩ := hs.standing target n hn
    rcases h n target v hv with hmem | hmem | ⟨hstands, -⟩
    · rcases List.mem_append.mp hmem with hmem | hmem
      · exact absurd hmem (hreturned _)
      · obtain ⟨m, hm, heq⟩ := List.mem_map.mp hmem
        cases heq
        exact Option.mem_toList.mp hm
    · exact absurd hmem hover
    · have hnone : (lambClearSignal s target signal write).standing target = none :=
        Function.update_self ..
      rw [hnone] at hstands
      cases hstands
  · intro hread n x v hv
    rcases hnever n x v hv with hreturned | hover | ⟨hstanding, hsignal⟩
    · exact .inl (List.mem_append_left _ hreturned)
    · exact .inr (.inl hover)
    · by_cases heq : x = target
      · subst heq
        obtain rfl := hread n hstanding
        obtain ⟨w, hw, rfl⟩ := hs.polled x signal n hpoll
        have hvw : v = w := by
          have hv : s.writes[n]? = some (x, v) := hv
          rw [hv] at hw
          cases hw
          rfl
        subst hvw
        exact .inl (List.mem_append_right _ (List.mem_singleton_self _))
      · refine .inr (.inr ⟨?_, ?_⟩)
        · rw [← hstanding]
          exact Function.update_of_ne heq ..
        · rw [← hsignal]
          exact Function.update_of_ne (Target.key_injective.ne heq) ..

/-- `HGET` takes the value of the write that stands in the field. -/
theorem inv_hget {s : State} (hs : Inv s) (target : Target) :
    Inv { s with
      poll := Function.update s.poll target
        (.polled (signalOf (s.signal target.key)) (s.standing target)) } := by
  refine ⟨hs.standing, ?_, hs.overwritten, hs.returned⟩
  intro x got n hn
  simp only [Function.update_apply] at hn
  split at hn
  · next heq =>
    subst heq
    injection hn with hgot hstanding
    obtain ⟨-, v, hv, hsignal⟩ := hs.standing x n hstanding
    refine ⟨v, hv, ?_⟩
    rw [← hgot, hsignal, signalOf_decimalInt]
  · exact hs.polled x got n hn

/-! ## One step and whole runs -/

theorem step_cases {s t : State} {a : Action} (h : step s a = some t) :
    (∃ target signal write, a = .clear target ∧ s.poll target = .polled signal write ∧
        t = lambClearSignal s target signal write) ∨
      ClearsWhatItRead s a ∧ (Inv s → Inv t) ∧ (NeverErased s → NeverErased t) := by
  cases a with
  | set target v =>
    cases h
    right
    refine ⟨trivial, ?_⟩
    unfold lambSetSignal
    split
    · exact ⟨id, id⟩
    · exact ⟨fun hs => inv_write hs target v, fun hnever => neverErased_write hnever target v⟩
  | hset target v =>
    cases h
    exact .inr ⟨trivial, fun hs => inv_write hs target v,
      fun hnever => neverErased_write hnever target v⟩
  | hget target =>
    simp only [step] at h
    split at h
    · cases h
      exact .inr ⟨trivial, fun hs => inv_hget hs target, fun hnever => hnever⟩
    · cases h
  | clear target =>
    simp only [step] at h
    split at h
    · cases h
    · next signal write hpoll =>
      cases h
      exact .inl ⟨target, signal, write, rfl, hpoll, rfl⟩

theorem neverErased_step_iff {s : State} (hs : Inv s) (hnever : NeverErased s) (a : Action) :
    (∀ t, step s a = some t → NeverErased t) ↔ ClearsWhatItRead s a := by
  constructor
  · intro h
    cases a with
    | clear target =>
      intro signal write hpoll
      apply (neverErased_clear_iff hs hnever hpoll).mp
      apply h
      rw [step, hpoll]
    | set | hset | hget => trivial
  · intro hclears t ht
    rcases step_cases ht with ⟨target, signal, write, rfl, hpoll, rfl⟩ | ⟨-, -, hkeep⟩
    · exact (neverErased_clear_iff hs hnever hpoll).mpr (hclears signal write hpoll)
    · exact hkeep hnever

theorem inv_step {s t : State} {a : Action} (hs : Inv s) (ht : step s a = some t) : Inv t := by
  rcases step_cases ht with ⟨target, signal, write, rfl, hpoll, rfl⟩ | ⟨-, hkeep, -⟩
  · exact inv_clear hs hpoll
  · exact hkeep hs

/-- In all states of a run every signal written has been returned by a poll, has been replaced by
a later one, or stands in its field, if and only if no writer's command falls between the two
commands of a poll of the same process. -/
theorem never_erased_iff (signal : Bytes → Option Bytes) (as : List Action) :
    (∀ bs, bs <+: as → ∀ t, exec step (.init signal) bs = some t → NeverErased t) ↔
      Guarded step ClearsWhatItRead (.init signal) as := by
  apply forall_states_iff_guarded_of_invariant (fun hs ht _ => inv_step hs ht)
  · exact neverErased_step_iff
  · exact inv_init signal
  · exact neverErased_init signal

/-- The console's `kill` comes in between the two commands of the server's poll: the poll returns
0, and the 9 is gone from the field. -/
theorem kill_erased :
    let server : Target := ⟨.server, 3⟩
    ∃ t, exec step (.init fun _ => none) [.hget server, .set server ⟨9, by decide⟩, .clear server] =
        some t ∧
      t.signal server.key = some (decimalInt 0) ∧ t.returned = [] ∧ t.overwritten = [] ∧
      t.standing server = none ∧ ¬NeverErased t := by
  intro server
  refine ⟨_, rfl, Function.update_self .., rfl, rfl, rfl, fun h => ?_⟩
  rcases h 0 server ⟨9, by decide⟩ rfl with hreturned | hover | ⟨hstanding, -⟩
  · cases hreturned
  · cases hover
  · cases hstanding

end LambGateway.Console
