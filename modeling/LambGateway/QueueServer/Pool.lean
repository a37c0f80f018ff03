import LambGateway.Framework.Transition
import Mathlib.Data.List.Nodup
import Mathlib.Logic.Function.Basic

/-!
# The pool of queues

The push and pull connections of the delivery program share a list of queues. Each of them looks
a queue up by the account's number and makes one if there is none, without holding the pool
between the two; a pull connection keeps the queue it has found.
-/

namespace LambGateway.QueueServer.Pool

open Framework

variable {μ : Type}

structure Queue (μ : Type) where
  id : Int32
  list : List μ

def lambQueueNew (id : Int32) : Queue μ := ⟨id, []⟩

/-- `lamb_list_find` with `lamb_queue_compare`: where the first queue with the number stands. -/
def lambListFind (pool : List (Queue μ)) (id : Int32) : Option Nat :=
  pool.findIdx? fun queue => queue.id == id

def lambQueuePush (pool : List (Queue μ)) (q : Nat) (m : μ) : List (Queue μ) :=
  pool.modify q fun queue => { queue with list := queue.list ++ [m] }

def lambQueuePop (pool : List (Queue μ)) (q : Nat) : List (Queue μ) :=
  pool.modify q fun queue => { queue with list := queue.list.tail }

/-- The queue that a look-up finds is the first one with the number. -/
theorem lambListFind_eq_some {pool : List (Queue μ)} {id : Int32} {q : Nat}
    (h : lambListFind pool id = some q) :
    ∃ front queue rest, pool = front ++ queue :: rest ∧ q = front.length ∧ queue.id = id ∧
      ∀ other ∈ front, other.id ≠ id := by
  obtain ⟨hlt, hid, hbefore⟩ := List.findIdx?_eq_some_iff_getElem.mp h
  have hlen : (pool.take q).length = q := by
    rw [List.length_take]
    omega
  refine ⟨pool.take q, pool[q], pool.drop (q + 1), ?_, hlen.symm, ?_, ?_⟩
  · rw [← List.drop_eq_getElem_cons hlt, List.take_append_drop]
  · simpa using hid
  · intro other hother
    obtain ⟨i, hi, rfl⟩ := List.mem_take_iff_getElem.mp hother
    have hne := hbefore i (by omega)
    simpa using hne

theorem lambListFind_eq_none {pool : List (Queue μ)} {id : Int32} :
    lambListFind pool id = none ↔ ∀ queue ∈ pool, queue.id ≠ id := by
  rw [lambListFind, List.findIdx?_eq_none_iff]
  simp only [beq_eq_false_iff_ne]

theorem lambQueuePush_append (front rest : List (Queue μ)) (queue : Queue μ) (m : μ) :
    lambQueuePush (front ++ queue :: rest) front.length m =
      front ++ { queue with list := queue.list ++ [m] } :: rest := by
  unfold lambQueuePush
  induction front with
  | nil => rfl
  | cons other front ih =>
    rw [List.cons_append, List.length_cons, List.modify_succ_cons, ih]
    rfl

/-- A push connection works on one message after the other, a pull connection has no message. -/
inductive Handler (μ : Type) where
  | waiting
  /-- The look-up has found nothing. -/
  | missing (id : Int32) (m : Option μ)
  | holding (id : Int32) (m : μ) (q : Nat)
  | serving (id : Int32) (q : Nat)
  | closed

def Handler.attend (id : Int32) (q : Nat) : Option μ → Handler μ
  | some m => .holding id m q
  | none => .serving id q

/-- The pool, the connections, and where each message pushed so far has gone, with the account
that it was pushed for. -/
structure State (μ : Type) where
  pool : List (Queue μ)
  handlers : Nat → Handler μ
  pushed : List (Int32 × Nat)

def State.init : State μ where
  pool := []
  handlers _ := .waiting
  pushed := []

inductive Action (μ : Type) where
  /-- A `REPORT` or a routed `DELIVER` comes in for the account, or a client asks to pull. -/
  | find (h : Nat) (id : Int32) (m : Option μ)
  /-- `lamb_queue_new`, and `lamb_list_rpush` if it succeeds. -/
  | create (h : Nat) (alloc : Bool)
  | push (h : Nat) (alloc : Bool)
  | pop (h : Nat)
  | close (h : Nat)

def State.update (s : State μ) (h : Nat) (handler : Handler μ) : State μ :=
  { s with handlers := Function.update s.handlers h handler }

/-- The connections of the delivery program: any number of them, in any order. -/
def step (s : State μ) : Action μ → Option (State μ)
  | .find h id m =>
    match s.handlers h with
    | .waiting =>
      match lambListFind s.pool id with
      | some q => some (s.update h (.attend id q m))
      | none => some (s.update h (.missing id m))
    | _ => none
  | .create h alloc =>
    match s.handlers h with
    | .missing id m =>
      if alloc then
        some { s.update h (.attend id s.pool.length m) with pool := s.pool ++ [lambQueueNew id] }
      else some (s.update h (if m.isSome then .waiting else .closed))
    | _ => none
  | .push h alloc =>
    match s.handlers h with
    | .holding id m q =>
      if alloc then
        some
          { s.update h .waiting with
            pool := lambQueuePush s.pool q m
            pushed := s.pushed ++ [(id, q)] }
      else some (s.update h .waiting)
    | _ => none
  | .pop h =>
    match s.handlers h with
    | .serving _ q => some { s with pool := lambQueuePop s.pool q }
    | _ => none
  | .close h =>
    match s.handlers h with
    | .serving _ _ => some (s.update h .closed)
    | _ => none

/-! ## What a reference to a queue means -/

def ids (pool : List (Queue μ)) : List Int32 := pool.map Queue.id

/-- The queue that the connection refers to, with the account. -/
def Handler.queue : Handler μ → Option (Int32 × Nat)
  | holding id _ q => some (id, q)
  | serving id q => some (id, q)
  | _ => none

/-- No two queues have one number. -/
def OneQueue (s : State μ) : Prop := (ids s.pool).Nodup

/-- What was pushed for an account went into the queue that every puller registered for the
account serves. -/
def Delivered (s : State μ) : Prop :=
  ∀ h id q, s.handlers h = .serving id q → ∀ p ∈ s.pushed, p.1 = id → p.2 = q

/-- A queue is made for a number that the pool does not have. -/
def CreatesFresh (s : State μ) : Action μ → Prop
  | .create h true => ∀ id m, s.handlers h = .missing id m → id ∉ ids s.pool
  | _ => True

/-- Every reference is to a queue with the account's number. -/
structure Inv (s : State μ) : Prop where
  handlers : ∀ h p, (s.handlers h).queue = some p → (ids s.pool)[p.2]? = some p.1
  pushed : ∀ p ∈ s.pushed, (ids s.pool)[p.2]? = some p.1

theorem inv_init : Inv (State.init : State μ) where
  handlers _ _ h := by cases h
  pushed _ h := by cases h

theorem ids_modify (pool : List (Queue μ)) (q : Nat) (f : Queue μ → Queue μ)
    (hf : ∀ queue, (f queue).id = queue.id) : ids (pool.modify q f) = ids pool := by
  apply List.ext_getElem?
  intro i
  simp only [ids, List.getElem?_map, List.getElem?_modify]
  split
  · cases pool[i]? with
    | none => rfl
    | some queue => simp [hf]
  · simp

@[simp] theorem ids_lambQueuePush (pool : List (Queue μ)) (q : Nat) (m : μ) :
    ids (lambQueuePush pool q m) = ids pool :=
  ids_modify pool q _ fun _ => rfl

@[simp] theorem ids_lambQueuePop (pool : List (Queue μ)) (q : Nat) :
    ids (lambQueuePop pool q) = ids pool :=
  ids_modify pool q _ fun _ => rfl

theorem ids_lambListFind {pool : List (Queue μ)} {id : Int32} {q : Nat}
    (h : lambListFind pool id = some q) : (ids pool)[q]? = some id := by
  obtain ⟨hlt, hid, -⟩ := List.findIdx?_eq_some_iff_getElem.mp h
  have hid : pool[q].id = id := by simpa using hid
  rw [ids, List.getElem?_map, List.getElem?_eq_getElem hlt, Option.map_some, hid]

theorem Handler.queue_attend (id : Int32) (q : Nat) (m : Option μ) :
    (Handler.attend id q m).queue = some (id, q) := by
  cases m <;> rfl

/-- Another connection's state is replaced, the pool grows at its end at most, and nothing or a
reference to a right queue is added. -/
theorem inv_update {s : State μ} (hs : Inv s) {pool : List (Queue μ)} {more : List Int32}
    (hpool : ids pool = ids s.pool ++ more) (h : Nat) {handler : Handler μ}
    (hhandler : ∀ p, handler.queue = some p → (ids pool)[p.2]? = some p.1)
    {pushed : List (Int32 × Nat)} (hpushed : ∀ p ∈ pushed, p ∈ s.pushed ∨
      (ids pool)[p.2]? = some p.1) :
    Inv { pool := pool, handlers := Function.update s.handlers h handler, pushed := pushed } := by
  have hkept (p : Int32 × Nat) (hp : (ids s.pool)[p.2]? = some p.1) :
      (ids pool)[p.2]? = some p.1 := by
    obtain ⟨hlt, -⟩ := List.getElem?_eq_some_iff.mp hp
    rw [hpool, List.getElem?_append_left hlt]
    exact hp
  constructor
  · intro k p hk
    simp only [Function.update_apply] at hk
    split at hk
    · exact hhandler p hk
    · exact hkept p (hs.handlers k p hk)
  · intro p hp
    rcases hpushed p hp with hp | hp
    · exact hkept p (hs.pushed p hp)
    · exact hp

/-- The pool keeps its queues, or a connection that has found none for its number adds one. -/
theorem step_ids {s t : State μ} {a : Action μ} (h : step s a = some t) :
    ids t.pool = ids s.pool ∨
      ∃ k id m, a = .create k true ∧ s.handlers k = .missing id m ∧
        ids t.pool = ids s.pool ++ [id] := by
  cases a with
  | find k id m =>
    simp only [step] at h
    (repeat' split at h) <;> cases h <;> exact .inl rfl
  | create k alloc =>
    simp only [step] at h
    split at h
    · next id m hk =>
      cases alloc with
      | true =>
        cases h
        exact .inr ⟨k, id, m, rfl, hk, List.map_append⟩
      | false =>
        cases h
        exact .inl rfl
    · cases h
  | push k alloc =>
    simp only [step] at h
    (repeat' split at h) <;> cases h
    · exact .inl (ids_lambQueuePush _ _ _)
    · exact .inl rfl
  | pop k =>
    simp only [step] at h
    split at h <;> cases h
    exact .inl (ids_lambQueuePop _ _)
  | close k =>
    simp only [step] at h
    split at h <;> cases h
    exact .inl rfl

theorem inv_step {s t : State μ} {a : Action μ} (hs : Inv s) (h : step s a = some t) : Inv t := by
  have hnone (p : Int32 × Nat) (handler : Handler μ) (hh : handler.queue = none)
      (hp : handler.queue = some p) : (ids s.pool)[p.2]? = some p.1 := by
    rw [hh] at hp
    cases hp
  have hold (p : Int32 × Nat) (hp : p ∈ s.pushed) :
      p ∈ s.pushed ∨ (ids s.pool)[p.2]? = some p.1 :=
    .inl hp
  cases a with
  | find k id m =>
    simp only [step] at h
    split at h
    · split at h
      · next q hq =>
        cases h
        apply inv_update hs (List.append_nil _).symm k _ hold
        intro p hp
        rw [Handler.queue_attend] at hp
        cases hp
        exact ids_lambListFind hq
      · cases h
        exact inv_update hs (List.append_nil _).symm k (fun p => hnone p _ rfl) hold
    · cases h
  | create k alloc =>
    simp only [step] at h
    split at h
    · next id m hk =>
      cases alloc with
      | true =>
        cases h
        have hids : ids (s.pool ++ [lambQueueNew id]) = ids s.pool ++ [id] := List.map_append
        apply inv_update hs hids k _ fun p hp => .inl hp
        intro p hp
        rw [Handler.queue_attend] at hp
        cases hp
        have hlen : (ids s.pool).length = s.pool.length := List.length_map _
        rw [hids, ← hlen, List.getElem?_concat_length]
      | false =>
        cases h
        apply inv_update hs (List.append_nil _).symm k _ hold
        intro p hp
        cases m <;> cases hp
    · cases h
  | push k alloc =>
    simp only [step] at h
    split at h
    · next id m q hk =>
      cases alloc with
      | true =>
        cases h
        have hids := ids_lambQueuePush s.pool q m
        refine inv_update hs (hids.trans (List.append_nil _).symm) k ?_ ?_
        · intro p hp
          cases hp
        · intro p hp
          rcases List.mem_append.mp hp with hp | hp
          · exact .inl hp
          · obtain rfl := List.mem_singleton.mp hp
            rw [hids]
            exact .inr (hs.handlers k (id, q) (by rw [hk]; rfl))
      | false =>
        cases h
        exact inv_update hs (List.append_nil _).symm k (fun p => hnone p _ rfl) hold
    · cases h
  | pop k =>
    simp only [step] at h
    split at h
    · next id q hk =>
      cases h
      constructor
      · intro j p hp
        rw [ids_lambQueuePop]
        exact hs.handlers j p hp
      · intro p hp
        rw [ids_lambQueuePop]
        exact hs.pushed p hp
    · cases h
  | close k =>
    simp only [step] at h
    split at h
    · cases h
      exact inv_update hs (List.append_nil _).symm k (fun p => hnone p _ rfl) hold
    · cases h

/-- With one queue for a number, the puller's queue and the pushers' are the same. -/
theorem delivered_of_oneQueue {s : State μ} (hs : Inv s) (hone : OneQueue s) : Delivered s := by
  intro h id q hserving p hp hid
  have hpull : (ids s.pool)[q]? = some id := hs.handlers h (id, q) (by rw [hserving]; rfl)
  have hpush : (ids s.pool)[p.2]? = some p.1 := hs.pushed p hp
  obtain ⟨hlt, -⟩ := List.getElem?_eq_some_iff.mp hpush
  apply (List.getElem?_inj hlt hone).mp
  rw [hpush, hpull, hid]

/-! ## Runs -/

theorem oneQueue_step_iff {s : State μ} (hone : OneQueue s) (a : Action μ) :
    (∀ t, step s a = some t → OneQueue t) ↔ CreatesFresh s a := by
  have hadd (id : Int32) : (ids s.pool ++ [id]).Nodup ↔ id ∉ ids s.pool ∧ (ids s.pool).Nodup := by
    rw [← List.concat_eq_append, List.nodup_concat]
  constructor
  · intro h
    cases a with
    | create k alloc =>
      cases alloc with
      | true =>
        intro id m hk
        have hnodup := h _ (by rw [step, hk]; rfl)
        have hids : ids (s.pool ++ [lambQueueNew id]) = ids s.pool ++ [id] := List.map_append
        change (ids (s.pool ++ [lambQueueNew id])).Nodup at hnodup
        rw [hids] at hnodup
        exact ((hadd id).mp hnodup).1
      | false => trivial
    | find | push | pop | close => trivial
  · intro hfresh t ht
    rcases step_ids ht with hids | ⟨k, id, m, rfl, hk, hids⟩
    · rw [OneQueue, hids]
      exact hone
    · rw [OneQueue, hids]
      exact (hadd id).mpr ⟨hfresh id m hk, hone⟩

end LambGateway.QueueServer.Pool
