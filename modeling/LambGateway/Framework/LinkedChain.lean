import Mathlib.Data.List.Nodup
import Mathlib.Logic.Function.Basic

/-!
# Doubly linked chains

Nodes on a heap, each with a link towards either side. A chain is a list of nodes that are linked
to their neighbours. Appending a node to a chain and taking one out of it change the links of the
neighbours only; what these changes leave is a chain again.
-/

namespace Framework

inductive Side where
  | head
  | tail
deriving DecidableEq

def Side.other : Side → Side
  | head => tail
  | tail => head

@[simp] theorem Side.other_other (side : Side) : side.other.other = side := by
  cases side <;> rfl

structure LinkNode (α ν : Type) where
  prev : Option α
  next : Option α
  val : ν

namespace LinkNode

variable {α ν : Type}

/-- `prev` points towards the head, `next` towards the tail. -/
def link (n : LinkNode α ν) : Side → Option α
  | .head => n.prev
  | .tail => n.next

def setLink (n : LinkNode α ν) (side : Side) (v : Option α) : LinkNode α ν :=
  match side with
  | .head => { n with prev := v }
  | .tail => { n with next := v }

@[simp] theorem link_setLink_self (n : LinkNode α ν) (side : Side) (v : Option α) :
    (n.setLink side v).link side = v := by
  cases side <;> rfl

@[simp] theorem link_setLink_other (n : LinkNode α ν) (side : Side) (v : Option α) :
    (n.setLink side v).link side.other = n.link side.other := by
  cases side <;> rfl

@[simp] theorem link_setLink_of_other (n : LinkNode α ν) (side : Side) (v : Option α) :
    (n.setLink side.other v).link side = n.link side := by
  cases side <;> rfl

@[simp] theorem val_setLink (n : LinkNode α ν) (side : Side) (v : Option α) :
    (n.setLink side v).val = n.val := by
  cases side <;> rfl

end LinkNode

abbrev LinkHeap (α ν : Type) := α → Option (LinkNode α ν)

namespace LinkHeap

variable {α ν : Type} [DecidableEq α]

/-- Set a link of a node, if it is there. -/
def setLink (h : LinkHeap α ν) (x : α) (side : Side) (v : Option α) : LinkHeap α ν :=
  Function.update h x ((h x).map fun n => n.setLink side v)

/-- Set a link of the node that a pointer points to, if it is not null. -/
def setLinkOf (h : LinkHeap α ν) (p : Option α) (side : Side) (v : Option α) : LinkHeap α ν :=
  match p with
  | some x => h.setLink x side v
  | none => h

/-- An assignment through a pointer to a node, which has to be there. -/
def store (h : LinkHeap α ν) (x : α) (side : Side) (v : Option α) : Option (LinkHeap α ν) :=
  if (h x).isSome then some (h.setLink x side v) else none

theorem store_of_some {h : LinkHeap α ν} {x : α} {n : LinkNode α ν} (hx : h x = some n)
    (side : Side) (v : Option α) : h.store x side v = some (h.setLink x side v) := by
  rw [store, hx]
  rfl

theorem setLink_self {h : LinkHeap α ν} {x : α} {n : LinkNode α ν} (hx : h x = some n)
    (side : Side) (v : Option α) : h.setLink x side v x = some (n.setLink side v) := by
  rw [setLink, Function.update_self, hx]
  rfl

theorem setLink_of_ne {x y : α} (hy : y ≠ x) (h : LinkHeap α ν) (side : Side) (v : Option α) :
    h.setLink x side v y = h y :=
  Function.update_of_ne hy _ _

/-- Links are all that an assignment changes. -/
theorem setLink_val (h : LinkHeap α ν) (x : α) (side : Side) (v : Option α) (y : α) :
    (h.setLink x side v y).map LinkNode.val = (h y).map LinkNode.val := by
  by_cases hy : y = x
  · rw [hy, setLink, Function.update_self, Option.map_map]
    congr 1
    funext n
    exact n.val_setLink side v
  · rw [setLink_of_ne hy]

theorem store_val {h h' : LinkHeap α ν} {x : α} {side : Side} {v : Option α}
    (hstore : h.store x side v = some h') (y : α) :
    (h' y).map LinkNode.val = (h y).map LinkNode.val := by
  unfold store at hstore
  split at hstore
  · obtain rfl := Option.some.inj hstore
    exact setLink_val h x side v y
  · exact nomatch hstore

theorem setLinkOf_of_ne {p : Option α} {y : α} (hy : p ≠ some y) (h : LinkHeap α ν) (side : Side)
    (v : Option α) : h.setLinkOf p side v y = h y := by
  cases p with
  | none => rfl
  | some x => exact setLink_of_ne (fun hyx => hy (congrArg some hyx.symm)) h side v

theorem setLinkOf_self {h : LinkHeap α ν} {p : Option α} {x : α} {n : LinkNode α ν}
    (hp : p = some x) (hx : h x = some n) (side : Side) (v : Option α) :
    h.setLinkOf p side v x = some (n.setLink side v) := by
  rw [hp]
  exact setLink_self hx side v

end LinkHeap

section Chain

variable {α ν : Type}

/-- The nodes are on the heap, each linked to its neighbours: towards `side` to the next one in
the list. -/
def Chain (h : LinkHeap α ν) (side : Side) (ys : List α) : Prop :=
  ∀ before x after, ys = before ++ x :: after →
    ∃ n, h x = some n ∧ n.link side = after.head? ∧ n.link side.other = before.getLast?

/-- From a pointer, the links towards `side` lead over these nodes to a null pointer. -/
def Follows (h : LinkHeap α ν) (side : Side) : Option α → List α → Prop
  | start, [] => start = none
  | start, x :: xs => start = some x ∧ ∃ n, h x = some n ∧ Follows h side (n.link side) xs

variable {h h' : LinkHeap α ν} {side : Side} {ys : List α}

theorem Chain.nil (h : LinkHeap α ν) (side : Side) : Chain h side ([] : List α) :=
  fun before x after heq => absurd heq (by simp)

theorem Chain.congr (hc : Chain h side ys) (hsame : ∀ y ∈ ys, h' y = h y) : Chain h' side ys := by
  intro before x after heq
  rw [hsame x (by simp [heq])]
  exact hc before x after heq

theorem Chain.reverse (hc : Chain h side ys) : Chain h side.other ys.reverse := by
  intro before x after heq
  have hys : ys = after.reverse ++ x :: before.reverse := by
    rw [← List.reverse_reverse ys, heq]
    simp
  obtain ⟨n, hn, hside, hother⟩ := hc _ _ _ hys
  refine ⟨n, hn, ?_, ?_⟩
  · rw [hother, List.getLast?_reverse]
  · rw [Side.other_other, hside, List.head?_reverse]

theorem Chain.mem (hc : Chain h side ys) {x : α} (hx : x ∈ ys) : ∃ n, h x = some n := by
  obtain ⟨before, after, rfl⟩ := List.append_of_mem hx
  obtain ⟨n, hn, -⟩ := hc before x after rfl
  exact ⟨n, hn⟩

/-- A chain can be followed to its end. -/
theorem Chain.follows (hc : Chain h side ys) : Follows h side ys.head? ys := by
  have hsuffix : ∀ before after, ys = before ++ after → Follows h side after.head? after := by
    intro before after
    induction after generalizing before with
    | nil => exact fun _ => rfl
    | cons x after ih =>
      intro heq
      obtain ⟨n, hn, hside, -⟩ := hc before x after heq
      refine ⟨rfl, n, hn, ?_⟩
      rw [hside]
      apply ih (before ++ [x])
      rw [heq, List.append_assoc]
      rfl
  exact hsuffix [] ys rfl

theorem Follows.start {p : Option α} (hf : Follows h side p ys) : p = ys.head? := by
  cases ys with
  | nil => exact hf
  | cons x xs => exact hf.1

/-- From a node on the way, the rest of the way. -/
theorem Follows.suffix {p : Option α} {before after : List α} {x : α}
    (hf : Follows h side p (before ++ x :: after)) : Follows h side (some x) (x :: after) := by
  induction before generalizing p with
  | nil => exact ⟨rfl, hf.2⟩
  | cons y before ih =>
    obtain ⟨-, n, -, hrest⟩ := hf
    exact ih hrest

theorem Follows.unique {p : Option α} {xs : List α} (hx : Follows h side p xs)
    (hy : Follows h side p ys) : xs = ys := by
  induction xs generalizing p ys with
  | nil => exact (List.head?_eq_none_iff.mp (hy.start.symm.trans hx)).symm
  | cons x xs ih =>
    obtain ⟨rfl, n, hn, hx⟩ := hx
    cases ys with
    | nil => exact nomatch hy
    | cons y ys =>
      obtain ⟨heq, m, hm, hy⟩ := hy
      obtain rfl := Option.some.inj heq
      obtain rfl := Option.some.inj (hn.symm.trans hm)
      rw [ih hx hy]

/-- A way that ends passes no node twice. -/
theorem Follows.nodup {p : Option α} (hf : Follows h side p ys) : ys.Nodup := by
  induction ys generalizing p with
  | nil => exact List.nodup_nil
  | cons x xs ih =>
    obtain ⟨-, n, hn, hrest⟩ := hf
    refine List.nodup_cons.mpr ⟨?_, ih hrest⟩
    intro hmem
    obtain ⟨before, after, rfl⟩ := List.append_of_mem hmem
    have hagain : Follows h side (some x) (x :: (before ++ x :: after)) := ⟨rfl, n, hn, hrest⟩
    have hlength := congrArg List.length (hagain.unique hrest.suffix)
    simp only [List.length_cons, List.length_append] at hlength
    omega

/-- Nodes that can be followed both ways are a chain. -/
theorem Chain.of_follows {p q : Option α} (hf : Follows h side p ys)
    (hb : Follows h side.other q ys.reverse) : Chain h side ys := by
  rintro before x after rfl
  rw [List.reverse_append, List.reverse_cons, List.append_assoc, List.singleton_append] at hb
  obtain ⟨-, n, hn, hafter⟩ := hf.suffix
  obtain ⟨-, m, hm, hbefore⟩ := hb.suffix
  obtain rfl := Option.some.inj (hn.symm.trans hm)
  refine ⟨n, hn, hafter.start, ?_⟩
  rw [hbefore.start, List.head?_reverse]

theorem head?_ne_of_not_mem {xs : List α} {y : α} (hy : y ∉ xs) : xs.head? ≠ some y :=
  fun h => hy (List.mem_of_mem_head? h)

theorem getLast?_ne_of_not_mem {xs : List α} {y : α} (hy : y ∉ xs) : xs.getLast? ≠ some y :=
  fun h => hy (List.mem_of_mem_getLast? h)

theorem getLast?_ne_of_nodup {b c : List α} {y w : α} (hnodup : (b ++ y :: w :: c).Nodup) :
    (b ++ y :: w :: c).getLast? ≠ some y := by
  have hy : y ∉ w :: c := (List.nodup_cons.mp (List.nodup_append.mp hnodup).2.1).1
  have hlast : (b ++ y :: w :: c).getLast? = (w :: c).getLast? := by
    rw [List.append_cons, List.getLast?_append_of_ne_nil _ (List.cons_ne_nil w c)]
  rw [hlast]
  exact getLast?_ne_of_not_mem hy

end Chain

section Changes

variable {α ν : Type} [DecidableEq α] {h : LinkHeap α ν} {side : Side}

/-- A node is put behind the last one: it gets a link back, and the last one a link to it. -/
theorem Chain.append {ys : List α} {a : α} {n : LinkNode α ν} (hc : Chain h side ys)
    (hnodup : (ys ++ [a]).Nodup) (ha : h a = some n) :
    Chain (((h.setLink a side.other ys.getLast?).setLink a side none).setLinkOf ys.getLast? side
      (some a)) side (ys ++ [a]) := by
  have hnew : a ∉ ys := fun hmem => (List.nodup_append.mp hnodup).2.2 a hmem a (by simp) rfl
  intro b y c heq
  rcases List.eq_nil_or_concat' c with rfl | ⟨c, z, rfl⟩
  · -- the new node
    obtain ⟨rfl, hy⟩ := List.append_inj' heq rfl
    obtain rfl : a = y := List.singleton_inj.mp hy
    refine ⟨(n.setLink side.other ys.getLast?).setLink side none, ?_, ?_, ?_⟩
    · rw [LinkHeap.setLinkOf_of_ne (getLast?_ne_of_not_mem hnew)]
      exact LinkHeap.setLink_self (LinkHeap.setLink_self ha _ _) _ _
    · simp
    · simp
  · have hsplit : ys ++ [a] = (b ++ y :: c) ++ [z] := by simp [heq]
    obtain ⟨rfl, hz⟩ := List.append_inj' hsplit rfl
    obtain rfl : a = z := List.singleton_inj.mp hz
    obtain ⟨m, hm, hside, hother⟩ := hc b y c rfl
    have hya : y ≠ a := fun hya => hnew (by simp [hya])
    have hinner : ((h.setLink a side.other (b ++ y :: c).getLast?).setLink a side none) y =
        some m := by
      rw [LinkHeap.setLink_of_ne hya, LinkHeap.setLink_of_ne hya, hm]
    cases c with
    | nil =>
      -- the node that was the last one
      refine ⟨m.setLink side (some a), ?_, ?_, ?_⟩
      · exact LinkHeap.setLinkOf_self (by simp) hinner _ _
      · simp
      · rw [LinkNode.link_setLink_other, hother]
    | cons w c =>
      have hne := getLast?_ne_of_nodup (List.nodup_append.mp hnodup).1
      refine ⟨m, ?_, ?_, ?_⟩
      · rw [LinkHeap.setLinkOf_of_ne hne, hinner]
      · rw [hside]
        rfl
      · rw [hother]

/-- The heap after the neighbours of a node between two lists have been linked to each other. -/
def LinkHeap.bridge (h : LinkHeap α ν) (side : Side) (before after : List α) : LinkHeap α ν :=
  (h.setLinkOf before.getLast? side after.head?).setLinkOf after.head? side.other before.getLast?

theorem LinkHeap.bridge_of_ne {before after : List α} {y : α} (hlast : before.getLast? ≠ some y)
    (hhead : after.head? ≠ some y) (h : LinkHeap α ν) (side : Side) :
    h.bridge side before after y = h y := by
  rw [bridge, setLinkOf_of_ne hhead, setLinkOf_of_ne hlast]

/-- The neighbour on the near side of a node that is taken out, and those behind it. -/
theorem Chain.erase_before {b c after : List α} {x y : α}
    (hc : Chain h side (b ++ y :: c ++ x :: after)) (hnodup : (b ++ y :: c ++ x :: after).Nodup) :
    ∃ n, h.bridge side (b ++ y :: c) after y = some n ∧ n.link side = (c ++ after).head? ∧
      n.link side.other = b.getLast? := by
  obtain ⟨n, hn, hside, hother⟩ := hc b y (c ++ x :: after) (by simp)
  have hapart := List.nodup_append.mp hnodup
  have hhead : after.head? ≠ some y := by
    apply head?_ne_of_not_mem
    exact fun hy => hapart.2.2 y (by simp) y (List.mem_cons_of_mem x hy) rfl
  cases c with
  | nil =>
    have hn' : h.setLinkOf (b ++ [y]).getLast? side after.head? y =
        some (n.setLink side after.head?) := LinkHeap.setLinkOf_self (by simp) hn _ _
    refine ⟨n.setLink side after.head?, ?_, ?_, ?_⟩
    · rw [LinkHeap.bridge, LinkHeap.setLinkOf_of_ne hhead, hn']
    · simp
    · rw [LinkNode.link_setLink_other, hother]
  | cons w c =>
    have hlast := getLast?_ne_of_nodup hapart.1
    refine ⟨n, ?_, hside, hother⟩
    rw [LinkHeap.bridge_of_ne hlast hhead, hn]

/-- The neighbour on the far side, and those behind it. -/
theorem Chain.erase_after {before b c : List α} {x y : α}
    (hc : Chain h side (before ++ x :: (b ++ y :: c)))
    (hnodup : (before ++ x :: (b ++ y :: c)).Nodup) :
    ∃ n, h.bridge side before (b ++ y :: c) y = some n ∧ n.link side = c.head? ∧
      n.link side.other = (before ++ b).getLast? := by
  obtain ⟨n, hn, hside, hother⟩ := hc (before ++ x :: b) y c (by simp)
  have hapart := List.nodup_append.mp hnodup
  have hlast : before.getLast? ≠ some y := by
    apply getLast?_ne_of_not_mem
    exact fun hy => hapart.2.2 y hy y (by simp) rfl
  cases b with
  | nil =>
    have hn' : h.setLinkOf before.getLast? side (y :: c).head? y = some n := by
      rw [LinkHeap.setLinkOf_of_ne hlast, hn]
    refine ⟨n.setLink side.other before.getLast?, ?_, ?_, ?_⟩
    · exact LinkHeap.setLinkOf_self rfl hn' _ _
    · rw [LinkNode.link_setLink_of_other, hside]
    · simp
  | cons w b =>
    have hhead : (w :: b ++ y :: c).head? ≠ some y := by
      intro heq
      have hw : w = y := Option.some.inj heq
      have hnd := (List.nodup_cons.mp (List.nodup_cons.mp hapart.2.1).2).1
      exact hnd (by simp [hw])
    refine ⟨n, ?_, hside, ?_⟩
    · rw [LinkHeap.bridge_of_ne hlast hhead, hn]
    · rw [hother, List.append_cons, List.getLast?_append_of_ne_nil _ (List.cons_ne_nil w b),
        List.getLast?_append_of_ne_nil _ (List.cons_ne_nil w b)]

/-- A node is taken out. -/
theorem Chain.erase {before after : List α} {x : α} (hc : Chain h side (before ++ x :: after))
    (hnodup : (before ++ x :: after).Nodup) :
    Chain (h.bridge side before after) side (before ++ after) := by
  intro b y c heq
  rcases List.append_eq_append_iff.mp heq with ⟨b', rfl, rfl⟩ | ⟨c', rfl, hc'⟩
  · exact hc.erase_after hnodup
  · cases c' with
    | nil =>
      obtain rfl : y :: c = after := hc'
      have h0 := Chain.erase_after (b := []) hc hnodup
      simpa using h0
    | cons w c' =>
      obtain ⟨rfl, rfl⟩ := List.cons.inj hc'
      exact hc.erase_before hnodup

end Changes

end Framework
