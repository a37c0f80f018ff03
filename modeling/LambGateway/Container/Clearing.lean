import LambGateway.Container.LinkedList

/-!
# Clearing a list

A reload empties a list before it reads the rows again, and the tables of the console empty the
list that they show. Both go over the list with an iterator and remove every node that it returns.
The iterator keeps a link that it read while the node was still in the list.
-/

namespace LambGateway.Container

open Framework

variable {α ν : Type}

/-- `lamb_list_iterator_t` -/
structure LambListIterator (α : Type) where
  next : Option α
  direction : Side

def lambListIteratorNewFromNode (node : Option α) (direction : Side) : LambListIterator α :=
  ⟨node, direction⟩

def lambListIteratorNew (list : LambList α) (direction : Side) : LambListIterator α :=
  let node := if direction = .head then list.head else list.tail
  lambListIteratorNewFromNode node direction

/-- The node that is next, or null. There is no result if it is no longer on the heap. -/
def lambListIteratorNext (heap : LinkHeap α ν) (self : LambListIterator α) :
    Option (LambListIterator α × Option α) :=
  match self.next with
  | none => some (self, none)
  | some curr => do
    let n ← heap curr
    let next := if self.direction = .head then n.next else n.prev
    some ({ self with next := next }, some curr)

theorem lambListIteratorNew_next (list : LambList α) (direction : Side) :
    (lambListIteratorNew list direction).next = list.tip direction := by
  cases direction <;> rfl

theorem lambListIteratorNext_some {heap : LinkHeap α ν} {a : α} {n : LinkNode α ν}
    (ha : heap a = some n) (direction : Side) :
    lambListIteratorNext heap ⟨some a, direction⟩ =
      some (⟨n.link direction.other, direction⟩, some a) := by
  rw [lambListIteratorNext]
  simp only [ha, Option.bind_eq_bind, Option.bind_some]
  cases direction <;> rfl

theorem Rep.list_eq_new {side : Side} {s : ListState α ν} (h : Rep side s []) :
    s.list = lambListNew := by
  have hlen : s.list.len = 0 := h.len_eq_zero.mpr rfl
  have hlast := h.last
  have hfirst := h.first
  obtain ⟨heap, head, tail, len⟩ := s
  cases side <;> simp_all [lambListNew, LambList.tip, Side.other]

/-- An address that `malloc` returns is not on the heap. -/
def Fresh (s : ListState α ν) (row : ν × Option α) : Prop :=
  ∀ a ∈ row.2, s.heap a = none

/-- The rows for which there was memory. -/
def stored (rows : List (ν × Option α)) : List ν :=
  (rows.filter fun row => row.2.isSome).map Prod.fst

theorem stored_cons (row : ν × Option α) (rows : List (ν × Option α)) :
    stored (row :: rows) = stored [row] ++ stored rows := by
  rw [stored, ← List.singleton_append, List.filter_append, List.map_append]
  rfl

theorem stored_length_le (rows : List (ν × Option α)) : (stored rows).length ≤ rows.length := by
  rw [stored, List.length_map]
  exact List.length_filter_le _ _

section Clear

variable [DecidableEq α]

/-- The loop of `lamb_reload` and of the tables, with the nodes that it takes out and the values
that it reads from them. -/
def clear : Nat → ListState α ν → LambListIterator α → Option (ListState α ν × List (α × ν))
  | 0, _, _ => none
  | fuel + 1, s, it => do
    let (it, node) ← lambListIteratorNext s.heap it
    match node with
    | none => some (s, [])
    | some node => do
      let n ← s.heap node
      let s ← lambListRemove s node
      let (s, nodes) ← clear fuel s it
      some (s, (node, n.val) :: nodes)

/-- A row and the address that `malloc` returns for its node. -/
def pushRow (s : ListState α ν) (row : ν × Option α) : Option (ListState α ν) :=
  (lambQueuePush s row.1 row.2).map Prod.fst

/-! ## One node -/

variable {side : Side} {s t : ListState α ν}

theorem unlink_val {a : α} (h : unlink side s a = some t) (b : α) :
    (t.heap b).map LinkNode.val = (s.heap b).map LinkNode.val := by
  rw [unlink] at h
  obtain ⟨n, -, h⟩ := Option.bind_eq_some_iff.mp h
  cases hlink : n.link side with
  | none =>
    rw [hlink] at h
    obtain rfl := Option.some.inj h
    rfl
  | some p =>
    rw [hlink] at h
    obtain ⟨heap, hstore, h⟩ := Option.bind_eq_some_iff.mp h
    obtain rfl := Option.some.inj h
    exact LinkHeap.store_val hstore b

/-- A removal leaves the values of the other nodes. -/
theorem lambListRemove_val {a b : α} (h : lambListRemove s a = some t) (hb : b ≠ a) :
    (t.heap b).map LinkNode.val = (s.heap b).map LinkNode.val := by
  rw [lambListRemove] at h
  obtain ⟨s₁, h₁, h⟩ := Option.bind_eq_some_iff.mp h
  obtain ⟨s₂, h₂, h⟩ := Option.bind_eq_some_iff.mp h
  obtain ⟨n, -, h⟩ := Option.bind_eq_some_iff.mp h
  obtain rfl := Option.some.inj h
  show (Function.update s₂.heap a none b).map LinkNode.val = _
  rw [Function.update_of_ne hb, unlink_val h₂ b, unlink_val h₁ b]

/-- The first node, seen from the side where the iterator began, is taken out and freed. -/
theorem lambListRemove_first {a : α} {after : List α} (h : Rep side s (a :: after)) :
    ∃ t, lambListRemove s a = some t ∧ Rep side t after ∧ t.heap a = none ∧
      ∀ b, b ∉ a :: after → t.heap b = s.heap b := by
  cases side with
  | tail =>
    have hfront : Rep .tail s ([] ++ a :: after) := h
    exact lambListRemove_spec hfront
  | head =>
    have hback : Rep .tail s (after.reverse ++ a :: []) := by
      rw [← List.reverse_cons]
      exact h.reverse
    obtain ⟨t, hrun, hrep, hfreed, hkept⟩ := lambListRemove_spec hback
    rw [List.append_nil] at hrep
    have hrest := hrep.reverse
    rw [List.reverse_reverse] at hrest
    refine ⟨t, hrun, hrest, hfreed, ?_⟩
    intro b hb
    apply hkept
    rwa [← List.reverse_cons, List.mem_reverse]

/-! ## The loop -/

/-- The iterator stands at the first of the nodes that are left. By induction on these nodes, each
of them is returned, read and freed in turn. -/
theorem clear_spec {direction : Side} {ys : List α} (h : Rep direction.other s ys) {fuel : Nat}
    (hfuel : ys.length < fuel) :
    ∃ t nodes, clear fuel s ⟨ys.head?, direction⟩ = some (t, nodes) ∧ Rep direction.other t [] ∧
      nodes.map Prod.fst = ys ∧ (∀ p ∈ nodes, (s.heap p.1).map LinkNode.val = some p.2) ∧
      (∀ a ∈ ys, t.heap a = none) ∧ ∀ b, b ∉ ys → t.heap b = s.heap b := by
  induction ys generalizing s fuel with
  | nil =>
    cases fuel with
    | zero => exact absurd hfuel (Nat.not_lt_zero _)
    | succ fuel => exact ⟨s, [], rfl, h, rfl, by simp, by simp, fun _ _ => rfl⟩
  | cons a after ih =>
    cases fuel with
    | zero => exact absurd hfuel (Nat.not_lt_zero _)
    | succ fuel =>
      obtain ⟨n, hn, hnext, -⟩ := h.chain [] a after rfl
      obtain ⟨u, hremove, hrest, hfreed, hframe⟩ := lambListRemove_first h
      have ha : a ∉ after := (List.nodup_cons.mp h.nodup).1
      obtain ⟨t, nodes, hrun, hempty, hnodes, hvals, hgone, hkept⟩ :=
        ih hrest (Nat.lt_of_succ_lt_succ hfuel)
      refine ⟨t, (a, n.val) :: nodes, ?_, hempty, ?_, ?_, ?_, ?_⟩
      · rw [List.head?_cons, clear, lambListIteratorNext_some hn, hnext]
        simp only [Option.bind_eq_bind, Option.bind_some, hn, hremove, hrun]
      · rw [List.map_cons, hnodes]
      · rintro p (_ | ⟨_, hp⟩)
        · rw [hn]
          rfl
        · have hne : p.1 ≠ a := by
            intro heq
            apply ha
            rw [← heq, ← hnodes]
            exact List.mem_map_of_mem hp
          rw [← lambListRemove_val hremove hne]
          exact hvals p hp
      · intro b hb
        by_cases hafter : b ∈ after
        · exact hgone b hafter
        · obtain rfl : b = a := by
            rcases List.mem_cons.mp hb with heq | hmem
            · exact heq
            · exact absurd hmem hafter
          rw [hkept b ha, hfreed]
      · intro b hb
        rw [hkept b (fun hmem => hb (List.mem_cons_of_mem a hmem)), hframe b hb]

/-! ## Rows -/

theorem pushRow_holds {vs : List ν} (h : Holds s vs) {row : ν × Option α} (hfresh : Fresh s row)
    (hlen : vs.length + 1 < 4294967296) :
    ∃ t, pushRow s row = some t ∧ Holds t (vs ++ stored [row]) := by
  obtain ⟨v, p⟩ := row
  cases p with
  | none =>
    refine ⟨s, rfl, ?_⟩
    change Holds s (vs ++ [])
    rwa [List.append_nil]
  | some a =>
    obtain ⟨t, hrun, hholds⟩ := lambQueuePush_holds h (hfresh a rfl) hlen v
    refine ⟨t, ?_, hholds⟩
    rw [pushRow, hrun]
    rfl

/-- Rows that are pushed one after the other stand in the list in this order. -/
theorem exec_pushRow (rows : List (ν × Option α)) {vs : List ν} (h : Holds s vs)
    (hfresh : Guarded pushRow Fresh s rows) (hlen : vs.length + rows.length < 4294967296) :
    ∃ t, exec pushRow s rows = some t ∧ Holds t (vs ++ stored rows) := by
  induction rows generalizing s vs with
  | nil =>
    refine ⟨s, rfl, ?_⟩
    change Holds s (vs ++ [])
    rwa [List.append_nil]
  | cons row rows ih =>
    rw [List.length_cons] at hlen
    obtain ⟨u, hpush, hu⟩ := pushRow_holds h hfresh.1 (by omega)
    have hone := stored_length_le [row]
    rw [List.length_singleton] at hone
    obtain ⟨t, hrun, ht⟩ := ih hu (hfresh.2 u hpush) (by rw [List.length_append]; omega)
    refine ⟨t, exec_cons_eq_some.mpr ⟨u, hpush, hrun⟩, ?_⟩
    rwa [stored_cons, ← List.append_assoc]

/-- A list is emptied from either end, and filled again. -/
theorem clear_then_push {xs : List α} (h : Represents s xs) (direction : Side) {fuel : Nat}
    (hfuel : xs.length < fuel) :
    ∃ t nodes, clear fuel s (lambListIteratorNew s.list direction) = some (t, nodes) ∧
      nodes.map Prod.fst = (if direction = .head then xs else xs.reverse) ∧
      (∀ p ∈ nodes, (s.heap p.1).map LinkNode.val = some p.2) ∧
      t.list.head = none ∧ t.list.tail = none ∧ t.list.len = 0 ∧ (∀ a ∈ xs, t.heap a = none) ∧
      (∀ b, b ∉ xs → t.heap b = s.heap b) ∧
      ∀ rows, rows.length < 4294967296 → Guarded pushRow Fresh t rows →
        ∃ u, exec pushRow t rows = some u ∧ Holds u (stored rows) := by
  let ys := if direction = .head then xs else xs.reverse
  have hmem (a : α) : a ∈ ys ↔ a ∈ xs := by
    cases direction with
    | head => exact Iff.rfl
    | tail => exact List.mem_reverse
  have hlen : ys.length = xs.length := by
    cases direction with
    | head => rfl
    | tail => exact List.length_reverse
  have hrep : Rep direction.other s ys := by
    cases direction with
    | head => exact h.rep
    | tail => exact h.rep.reverse
  have hnew : lambListIteratorNew s.list direction = ⟨ys.head?, direction⟩ := by
    have hfirst := hrep.first
    rw [Side.other_other, ← lambListIteratorNew_next] at hfirst
    rw [← hfirst]
    rfl
  rw [← hlen] at hfuel
  obtain ⟨t, nodes, hrun, hempty, hnodes, hvals, hgone, hkept⟩ := clear_spec hrep hfuel
  have hlist := hempty.list_eq_new
  refine ⟨t, nodes, hnew ▸ hrun, hnodes, hvals, ?_, ?_, ?_, ?_, ?_, ?_⟩
  · rw [hlist, lambListNew]
  · rw [hlist, lambListNew]
  · rw [hlist, lambListNew]
  · exact fun a ha => hgone a ((hmem a).mpr ha)
  · exact fun b hb => hkept b (mt (hmem b).mp hb)
  · intro rows hrows hfresh
    have hholds : Holds t [] := by
      cases direction with
      | head => exact ⟨[], hempty, rfl⟩
      | tail => exact ⟨[], hempty.reverse, rfl⟩
    rw [← Nat.zero_add rows.length] at hrows
    exact exec_pushRow rows hholds hfresh hrows

/-- A list of two nodes is emptied from the tail. One row takes the address of a node that was
freed, and for another row there is no memory. -/
theorem clear_then_push_run :
    let heap : LinkHeap Nat Nat := fun a =>
      if a = 0 then some ⟨none, some 1, 7⟩ else if a = 1 then some ⟨some 0, none, 8⟩ else none
    let s : ListState Nat Nat := ⟨heap, ⟨some 0, some 1, 2⟩⟩
    ∃ t nodes u, clear 3 s (lambListIteratorNew s.list .tail) = some (t, nodes) ∧
      nodes.map Prod.fst = [1, 0] ∧ exec pushRow t [(5, some 1), (6, none)] = some u ∧
      Holds u [5] := by
  intro heap s
  have hs : Represents s [0, 1] :=
    ⟨⟨rfl, _, rfl, rfl, _, rfl, rfl⟩, rfl, ⟨rfl, _, rfl, rfl, _, rfl, rfl⟩, rfl⟩
  have hfuel : [0, 1].length < 3 := by decide
  obtain ⟨t, nodes, hrun, hnodes, -, -, -, -, hgone, -, hrows⟩ := clear_then_push hs .tail hfuel
  have hfresh : Guarded pushRow Fresh t [(5, some 1), (6, none)] := by
    refine ⟨?_, fun u _ => ⟨?_, fun _ _ => trivial⟩⟩
    · intro a ha
      obtain rfl := Option.some.inj ha
      exact hgone 1 (by decide)
    · exact fun a ha => nomatch ha
  obtain ⟨u, hpush, hholds⟩ := hrows _ (by decide) hfresh
  exact ⟨t, nodes, u, hrun, hnodes, hpush, hholds⟩

end Clear

end LambGateway.Container
