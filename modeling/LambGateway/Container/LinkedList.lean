import LambGateway.Framework.LinkedChain
import LambGateway.Framework.Transition

/-!
# The lists of the platform

Every queue of the platform is a list of nodes with links in both directions, a pointer to either
end and a counter. The operations decide by the counter and follow the pointers. What the two
ends have in common is written once, for a side.
-/

namespace LambGateway.Container

open Framework

variable {α ν : Type}

/-- `lamb_list_t` -/
structure LambList (α : Type) where
  head : Option α
  tail : Option α
  len : UInt32

namespace LambList

def tip (l : LambList α) : Side → Option α
  | .head => l.head
  | .tail => l.tail

def setTip (l : LambList α) (side : Side) (p : Option α) : LambList α :=
  match side with
  | .head => { l with head := p }
  | .tail => { l with tail := p }

@[simp] theorem tip_setTip_self (l : LambList α) (side : Side) (p : Option α) :
    (l.setTip side p).tip side = p := by
  cases side <;> rfl

@[simp] theorem tip_setTip_other (l : LambList α) (side : Side) (p : Option α) :
    (l.setTip side p).tip side.other = l.tip side.other := by
  cases side <;> rfl

@[simp] theorem len_setTip (l : LambList α) (side : Side) (p : Option α) :
    (l.setTip side p).len = l.len := by
  cases side <;> rfl

@[simp] theorem tip_mk_self (p : Option α) (len : UInt32) (side : Side) :
    (⟨p, p, len⟩ : LambList α).tip side = p := by
  cases side <;> rfl

@[simp] theorem tip_len (l : LambList α) (len : UInt32) (side : Side) :
    ({ l with len := len } : LambList α).tip side = l.tip side := by
  cases side <;> rfl

end LambList

/-- The nodes of the process, and one list. -/
structure ListState (α ν : Type) where
  heap : LinkHeap α ν
  list : LambList α

def lambListNew : LambList α := ⟨none, none, 0⟩

section Operations

variable [DecidableEq α]

/-- A push at a side. There is no next state if a pointer is followed that is null or leads to no
node. -/
def push (side : Side) (s : ListState α ν) : Option α → Option (ListState α ν × Option α)
  | none => some (s, none)
  | some node =>
    if s.list.len ≠ 0 then do
      let heap ← s.heap.store node side.other (s.list.tip side)
      let heap ← heap.store node side none
      let last ← s.list.tip side
      let heap ← heap.store last side (some node)
      let list := s.list.setTip side (some node)
      some (⟨heap, { list with len := list.len + 1 }⟩, some node)
    else do
      let heap ← s.heap.store node side.other none
      let heap ← heap.store node side none
      some (⟨heap, ⟨some node, some node, s.list.len + 1⟩⟩, some node)

def lambListRpush (s : ListState α ν) : Option α → Option (ListState α ν × Option α) :=
  push .tail s

def lambListLpush (s : ListState α ν) : Option α → Option (ListState α ν × Option α) :=
  push .head s

/-- What a pop leaves at its side when the counter has come down to `len`. -/
def detach (side : Side) (s : ListState α ν) (node : α) (len : UInt32) : Option (ListState α ν) :=
  if len ≠ 0 then do
    let n ← s.heap node
    let list := s.list.setTip side (n.link side.other)
    let last ← n.link side.other
    let heap ← s.heap.store last side none
    some ⟨heap, { list with len := len }⟩
  else some ⟨s.heap, ⟨none, none, len⟩⟩

def pop (side : Side) (s : ListState α ν) : Option (ListState α ν × Option α) :=
  if s.list.len = 0 then some (s, none)
  else do
    let node ← s.list.tip side
    let t ← detach side s node (s.list.len - 1)
    let heap ← t.heap.store node .tail none
    let heap ← heap.store node .head none
    some (⟨heap, t.list⟩, some node)

def lambListRpop (s : ListState α ν) : Option (ListState α ν × Option α) := pop .tail s

def lambListLpop (s : ListState α ν) : Option (ListState α ν × Option α) := pop .head s

/-- One half of a removal: what points to the node from a side is made to point behind it. -/
def unlink (side : Side) (s : ListState α ν) (node : α) : Option (ListState α ν) := do
  let n ← s.heap node
  match n.link side with
  | some p => do
    let heap ← s.heap.store p side.other (n.link side.other)
    some { s with heap := heap }
  | none => some { s with list := s.list.setTip side (n.link side.other) }

def lambListRemove (s : ListState α ν) (node : α) : Option (ListState α ν) := do
  let s ← unlink .head s node
  let s ← unlink .tail s node
  let _ ← s.heap node
  some ⟨Function.update s.heap node none, { s.list with len := s.list.len - 1 }⟩

end Operations

/-! ## The invariant -/

/-- The list holds these nodes, from the other side to `side`. -/
structure Rep (side : Side) (s : ListState α ν) (ys : List α) : Prop where
  nodup : ys.Nodup
  chain : Chain s.heap side ys
  last : s.list.tip side = ys.getLast?
  first : s.list.tip side.other = ys.head?
  len : s.list.len.toNat = ys.length

theorem Rep.reverse {side : Side} {s : ListState α ν} {ys : List α} (h : Rep side s ys) :
    Rep side.other s ys.reverse where
  nodup := List.nodup_reverse.mpr h.nodup
  chain := h.chain.reverse
  last := by rw [h.first, List.getLast?_reverse]
  first := by rw [Side.other_other, h.last, List.head?_reverse]
  len := by rw [h.len, List.length_reverse]

theorem Rep.len_eq_zero {side : Side} {s : ListState α ν} {ys : List α} (h : Rep side s ys) :
    s.list.len = 0 ↔ ys = [] := by
  rw [← List.length_eq_zero_iff, ← h.len]
  exact UInt32.toNat_inj.symm

/-- The links from the head lead over the nodes to the tail, and back from the tail, and the
counter is the number of the nodes. -/
structure Represents (s : ListState α ν) (xs : List α) : Prop where
  forward : Follows s.heap .tail s.list.head xs
  tail : s.list.tail = xs.getLast?
  backward : Follows s.heap .head s.list.tail xs.reverse
  len : s.list.len.toNat = xs.length

theorem rep_lambListNew (heap : LinkHeap α ν) : Rep .tail ⟨heap, lambListNew⟩ [] :=
  ⟨List.nodup_nil, Chain.nil _ _, rfl, rfl, rfl⟩

theorem Rep.represents {s : ListState α ν} {xs : List α} (h : Rep .tail s xs) :
    Represents s xs := by
  have hback := h.reverse.chain.follows
  have hhead : s.list.head = xs.head? := h.first
  have htail : s.list.tail = xs.getLast? := h.last
  refine ⟨?_, htail, ?_, h.len⟩
  · rw [hhead]
    exact h.chain.follows
  · rw [htail, ← List.head?_reverse]
    exact hback

theorem Represents.rep {s : ListState α ν} {xs : List α} (h : Represents s xs) :
    Rep .tail s xs where
  nodup := h.forward.nodup
  chain := Chain.of_follows h.forward h.backward
  last := h.tail
  first := h.forward.start
  len := h.len

theorem Rep.of_head {s : ListState α ν} {xs : List α} (h : Rep .head s xs.reverse) :
    Rep .tail s xs := by
  have hback := h.reverse
  rwa [List.reverse_reverse] at hback

variable [DecidableEq α] {side : Side} {s : ListState α ν} {ys : List α}

/-- A fresh node becomes the last one. No other node outside the list changes. -/
theorem push_spec (h : Rep side s ys) {a : α} {n : LinkNode α ν} (ha : s.heap a = some n)
    (hnew : a ∉ ys) (hlen : ys.length + 1 < 4294967296) :
    ∃ t, push side s (some a) = some (t, some a) ∧ Rep side t (ys ++ [a]) ∧
      ∀ b, b ∉ ys → b ≠ a → t.heap b = s.heap b := by
  have hnodup : (ys ++ [a]).Nodup := by
    rw [← List.concat_eq_append]
    exact h.nodup.concat hnew
  have hchain := h.chain.append hnodup ha
  have hcount : (s.list.len + 1).toNat = (ys ++ [a]).length := by
    rw [UInt32.toNat_add, UInt32.toNat_one, h.len, List.length_append, List.length_singleton]
    exact Nat.mod_eq_of_lt hlen
  have hback := LinkHeap.setLink_self ha side.other (s.list.tip side)
  have hboth := LinkHeap.setLink_self hback side none
  rw [← h.last] at hchain
  rw [push]
  cases hlast : s.list.tip side with
  | none =>
    have hnil : ys = [] := by
      rw [← List.getLast?_eq_none_iff, ← h.last, hlast]
    subst hnil
    rw [hlast] at hchain hback
    rw [if_neg (not_not.mpr (h.len_eq_zero.mpr rfl)), LinkHeap.store_of_some ha,
      Option.bind_eq_bind, Option.bind_some, LinkHeap.store_of_some hback]
    refine ⟨_, rfl, ⟨hnodup, hchain, ?_, ?_, hcount⟩, ?_⟩
    · exact LambList.tip_mk_self _ _ _
    · exact LambList.tip_mk_self _ _ _
    · intro b _ hb
      show ((s.heap.setLink a side.other none).setLink a side none) b = _
      rw [LinkHeap.setLink_of_ne hb, LinkHeap.setLink_of_ne hb]
  | some l =>
    have hl : l ∈ ys := List.mem_of_mem_getLast? (h.last ▸ hlast)
    have hla : l ≠ a := fun heq => hnew (heq ▸ hl)
    obtain ⟨m, hm⟩ := h.chain.mem hl
    rw [hlast] at hchain hback hboth
    have hm' : ((s.heap.setLink a side.other (some l)).setLink a side none) l = some m := by
      rw [LinkHeap.setLink_of_ne hla, LinkHeap.setLink_of_ne hla, hm]
    rw [if_pos fun h0 => List.ne_nil_of_mem hl (h.len_eq_zero.mp h0), LinkHeap.store_of_some ha,
      Option.bind_eq_bind, Option.bind_some, LinkHeap.store_of_some hback]
    simp only [Option.bind_eq_bind, Option.bind_some, LinkHeap.store_of_some hm']
    refine ⟨_, rfl, ⟨hnodup, hchain, ?_, ?_, ?_⟩, ?_⟩
    · simp
    · have hfirst : (ys ++ [a]).head? = ys.head? :=
        List.head?_append_of_ne_nil _ (List.ne_nil_of_mem hl)
      rw [LambList.tip_len, LambList.tip_setTip_other, h.first, hfirst]
    · rw [LambList.len_setTip]
      exact hcount
    · intro b hb hba
      have hbl : b ≠ l := fun heq => hb (heq ▸ hl)
      show (((s.heap.setLink a side.other (some l)).setLink a side none).setLink l side (some a)) b
        = _
      rw [LinkHeap.setLink_of_ne hbl, LinkHeap.setLink_of_ne hba, LinkHeap.setLink_of_ne hba]

theorem pop_nil (h : Rep side s []) : pop side s = some (s, none) := by
  rw [pop, if_pos (h.len_eq_zero.mpr rfl)]

theorem toNat_sub_one {len : UInt32} {n : Nat} (h : len.toNat = n + 1) :
    (len - 1).toNat = n := by
  have hle : 1 ≤ len := by
    rw [UInt32.le_iff_toNat_le, h]
    exact Nat.le_add_left 1 n
  rw [UInt32.toNat_sub_of_le _ _ hle, h]
  rfl

/-- The last node is no longer in the list, and the one before it is the last one. -/
theorem detach_spec {zs : List α} {a : α} (h : Rep side s (zs ++ [a])) :
    ∃ t, detach side s a (s.list.len - 1) = some t ∧ Rep side t zs ∧
      ∀ b, b ∉ zs → t.heap b = s.heap b := by
  obtain ⟨n, hn, -, hother⟩ := h.chain zs a [] rfl
  have hchain := h.chain.erase h.nodup
  have hnodup : zs.Nodup := (List.nodup_append.mp h.nodup).1
  have hcount : (s.list.len - 1).toNat = zs.length := by
    apply toNat_sub_one
    rw [h.len, List.length_append, List.length_singleton]
  rw [List.append_nil, LinkHeap.bridge] at hchain
  rw [detach]
  cases hlast : zs.getLast? with
  | none =>
    obtain rfl := List.getLast?_eq_none_iff.mp hlast
    have hzero : s.list.len - 1 = 0 := UInt32.toNat_inj.mp hcount
    rw [if_neg (not_not.mpr hzero)]
    refine ⟨_, rfl, ⟨hnodup, Chain.nil _ _, ?_, ?_, hcount⟩, fun _ _ => rfl⟩
    · exact LambList.tip_mk_self _ _ _
    · exact LambList.tip_mk_self _ _ _
  | some l =>
    have hl : l ∈ zs := List.mem_of_mem_getLast? hlast
    have hpos : s.list.len - 1 ≠ 0 := by
      intro hzero
      rw [hzero] at hcount
      exact List.ne_nil_of_mem hl (List.length_eq_zero_iff.mp hcount.symm)
    obtain ⟨m, hm⟩ := h.chain.mem (List.mem_append_left [a] hl)
    rw [hlast] at hchain hother
    rw [if_pos hpos, hn, Option.bind_eq_bind, Option.bind_some]
    simp only [hother, Option.bind_eq_bind, Option.bind_some, LinkHeap.store_of_some hm]
    refine ⟨_, rfl, ⟨hnodup, hchain, ?_, ?_, hcount⟩, ?_⟩
    · simp [hlast]
    · have hfirst : (zs ++ [a]).head? = zs.head? :=
        List.head?_append_of_ne_nil _ (List.ne_nil_of_mem hl)
      rw [LambList.tip_len, LambList.tip_setTip_other, h.first, hfirst]
    · intro b hb
      apply LinkHeap.setLink_of_ne
      exact fun heq => hb (heq ▸ hl)

/-- The last node is taken off, and its links are null. No node outside the list changes. -/
theorem pop_spec {zs : List α} {a : α} (h : Rep side s (zs ++ [a])) :
    ∃ t, pop side s = some (t, some a) ∧ Rep side t zs ∧
      (∃ n, t.heap a = some n ∧ n.prev = none ∧ n.next = none) ∧
      ∀ b, b ∉ zs ++ [a] → t.heap b = s.heap b := by
  have hlast : s.list.tip side = some a := by
    rw [h.last]
    exact List.getLast?_concat
  have hne : s.list.len ≠ 0 := by
    intro h0
    exact List.append_ne_nil_of_right_ne_nil zs (List.cons_ne_nil a []) (h.len_eq_zero.mp h0)
  have hnew : a ∉ zs := by
    intro hmem
    exact (List.nodup_append.mp h.nodup).2.2 a hmem a (List.mem_singleton_self a) rfl
  obtain ⟨n, hn⟩ := h.chain.mem (List.mem_append_right zs (List.mem_singleton_self a))
  obtain ⟨t, ht, hrep, hframe⟩ := detach_spec h
  have hta : t.heap a = some n := by rw [hframe a hnew, hn]
  have hnext := LinkHeap.setLink_self hta .tail none
  have hkept (b : α) (hb : b ≠ a) :
      ((t.heap.setLink a .tail none).setLink a .head none) b = t.heap b := by
    rw [LinkHeap.setLink_of_ne hb, LinkHeap.setLink_of_ne hb]
  refine ⟨⟨(t.heap.setLink a .tail none).setLink a .head none, t.list⟩, ?_, ?_, ?_, ?_⟩
  · rw [pop, if_neg hne, hlast]
    simp only [Option.bind_eq_bind, Option.bind_some, ht, LinkHeap.store_of_some hta,
      LinkHeap.store_of_some hnext]
  · have hchain := hrep.chain.congr fun b hb => hkept b fun heq => hnew (heq ▸ hb)
    exact ⟨hrep.nodup, hchain, hrep.last, hrep.first, hrep.len⟩
  · exact ⟨_, LinkHeap.setLink_self hnext .head none, rfl, rfl⟩
  · intro b hb
    obtain ⟨hbzs, hba⟩ := not_or.mp (mt List.mem_append.mpr hb)
    show ((t.heap.setLink a .tail none).setLink a .head none) b = _
    rw [hkept b fun heq => hba (List.mem_singleton.mpr heq), hframe b hbzs]

/-- The neighbour at a side, or the list's pointer if there is none, is made to point behind the
node. -/
theorem unlink_spec (side : Side) {s : ListState α ν} {a : α} {n : LinkNode α ν} (ha : s.heap a = some n)
    (hp : ∀ p, n.link side = some p → ∃ m, s.heap p = some m) :
    ∃ list, unlink side s a =
        some ⟨s.heap.setLinkOf (n.link side) side.other (n.link side.other), list⟩ ∧
      list.tip side = (if n.link side = none then n.link side.other else s.list.tip side) ∧
      list.tip side.other = s.list.tip side.other ∧ list.len = s.list.len := by
  rw [unlink, ha, Option.bind_eq_bind, Option.bind_some]
  cases hlink : n.link side with
  | none =>
    refine ⟨s.list.setTip side (n.link side.other), rfl, ?_, ?_, ?_⟩
    · rw [if_pos rfl, LambList.tip_setTip_self]
    · exact LambList.tip_setTip_other _ _ _
    · exact LambList.len_setTip _ _ _
  | some p =>
    obtain ⟨m, hm⟩ := hp p hlink
    simp only [LinkHeap.store_of_some hm, Option.bind_eq_bind, Option.bind_some]
    exact ⟨s.list, rfl, rfl, rfl, rfl⟩

/-- A node is taken out and freed. No other node outside the list changes. -/
theorem lambListRemove_spec {before after : List α} {a : α}
    (h : Rep .tail s (before ++ a :: after)) :
    ∃ t, lambListRemove s a = some t ∧ Rep .tail t (before ++ after) ∧ t.heap a = none ∧
      ∀ b, b ∉ before ++ a :: after → t.heap b = s.heap b := by
  obtain ⟨n, hn, hnext, hprev⟩ := h.chain before a after rfl
  change n.link .head = before.getLast? at hprev
  have hapart := List.nodup_append.mp h.nodup
  have hnodup : (before ++ after).Nodup :=
    (List.nodup_middle.mp h.nodup).of_cons
  have ha : a ∉ before ++ after := (List.nodup_cons.mp (List.nodup_middle.mp h.nodup)).1
  have hbefore : before.getLast? ≠ some a :=
    getLast?_ne_of_not_mem fun hmem => ha (List.mem_append_left _ hmem)
  have hafter : after.head? ≠ some a :=
    head?_ne_of_not_mem fun hmem => ha (List.mem_append_right _ hmem)
  -- the node before it
  obtain ⟨list₁, hunlink₁, htip₁, hkeep₁, hlen₁⟩ := unlink_spec .head hn (by
    intro p hp
    rw [hprev] at hp
    exact h.chain.mem (List.mem_append_left _ (List.mem_of_mem_getLast? hp)))
  rw [hprev, Side.other, hnext] at hunlink₁ htip₁
  let s₁ : ListState α ν := ⟨s.heap.setLinkOf before.getLast? .tail after.head?, list₁⟩
  have hn₁ : s₁.heap a = some n := (LinkHeap.setLinkOf_of_ne hbefore _ _ _).trans hn
  -- the node behind it
  obtain ⟨list₂, hunlink₂, htip₂, hkeep₂, hlen₂⟩ := unlink_spec .tail hn₁ (by
      intro q hq
      rw [hnext] at hq
      have hmem := List.mem_of_mem_head? hq
      have hne : before.getLast? ≠ some q := by
        apply getLast?_ne_of_not_mem
        exact fun hb => hapart.2.2 q hb q (List.mem_cons_of_mem a hmem) rfl
      obtain ⟨m, hm⟩ := h.chain.mem (List.mem_append_right _ (List.mem_cons_of_mem a hmem))
      exact ⟨m, (LinkHeap.setLinkOf_of_ne hne _ _ _).trans hm⟩)
  rw [hnext, Side.other, hprev] at hunlink₂ htip₂
  have hbridge : (s.heap.setLinkOf before.getLast? .tail after.head?).setLinkOf after.head? .head
      before.getLast? = s.heap.bridge .tail before after := rfl
  have hn₂ : s.heap.bridge .tail before after a = some n := by
    rw [LinkHeap.bridge_of_ne hbefore hafter, hn]
  rw [hbridge] at hunlink₂
  refine ⟨⟨Function.update (s.heap.bridge .tail before after) a none,
    { list₂ with len := list₂.len - 1 }⟩, ?_, ?_, Function.update_self _ _ _, ?_⟩
  · rw [lambListRemove, hunlink₁, Option.bind_eq_bind, Option.bind_some, hunlink₂,
      Option.bind_eq_bind, Option.bind_some]
    dsimp only
    rw [hn₂]
    rfl
  · have hfreed (y : α) (hy : y ∈ before ++ after) :
        Function.update (s.heap.bridge .tail before after) a none y =
          s.heap.bridge .tail before after y := by
      apply Function.update_of_ne
      exact fun heq => ha (heq ▸ hy)
    have hchain := (h.chain.erase h.nodup).congr hfreed
    refine ⟨hnodup, hchain, ?_, ?_, ?_⟩
    · show list₂.tip .tail = _
      rw [htip₂]
      show (if after.head? = none then before.getLast? else list₁.tip .tail) = _
      rw [show list₁.tip .tail = s.list.tip .tail from hkeep₁, h.last]
      cases after <;> simp
    · show list₂.tip .head = _
      rw [show list₂.tip .head = list₁.tip .head from hkeep₂, htip₁,
        show s.list.tip .head = _ from h.first]
      cases before <;> simp
    · show (list₂.len - 1).toNat = _
      apply toNat_sub_one
      rw [hlen₂, hlen₁, h.len, List.length_append, List.length_append, List.length_cons]
      omega
  · intro b hb
    have hbefore' : before.getLast? ≠ some b :=
      getLast?_ne_of_not_mem fun hmem => hb (List.mem_append_left _ hmem)
    have hafter' : after.head? ≠ some b := by
      apply head?_ne_of_not_mem
      exact fun hmem => hb (List.mem_append_right _ (List.mem_cons_of_mem a hmem))
    have hba : b ≠ a := fun heq => hb (heq ▸ List.mem_append_right _ List.mem_cons_self)
    show Function.update (s.heap.bridge .tail before after) a none b = _
    rw [Function.update_of_ne hba, LinkHeap.bridge_of_ne hbefore' hafter']

/-! ## Runs -/

/-- What happens to a list, and to the other nodes of the process. -/
inductive ListOp (α ν : Type) where
  /-- `lamb_list_rpush` or `lamb_list_lpush`, of a node or a null pointer. -/
  | push (side : Side) (node : Option α)
  /-- `lamb_list_rpop` or `lamb_list_lpop`. -/
  | pop (side : Side)
  | remove (node : α)
  /-- The rest of the program allocates, changes or frees a node. -/
  | elsewhere (node : α) (n : Option (LinkNode α ν))

namespace ListOp

/-- The code of an operation, with the node that it returns. -/
def run (s : ListState α ν) : ListOp α ν → Option (ListState α ν × Option α)
  | push .tail node => lambListRpush s node
  | push .head node => lambListLpush s node
  | pop .tail => lambListRpop s
  | pop .head => lambListLpop s
  | remove node => (lambListRemove s node).map fun t => (t, none)
  | elsewhere node n => some (⟨Function.update s.heap node n, s.list⟩, none)

/-- The operation on a double-ended queue. -/
def deque (xs : List α) : ListOp α ν → List α
  | push .tail (some a) => xs ++ [a]
  | push .head (some a) => a :: xs
  | push _ none => xs
  | pop .tail => xs.dropLast
  | pop .head => xs.tail
  | remove a => xs.erase a
  | elsewhere _ _ => xs

/-- What the operation returns for a double-ended queue. -/
def returned (xs : List α) : ListOp α ν → Option α
  | push _ node => node
  | pop .tail => xs.getLast?
  | pop .head => xs.head?
  | remove _ => none
  | elsewhere _ _ => none

def argument : ListOp α ν → Option α
  | push _ node => node
  | pop _ => none
  | remove a => some a
  | elsewhere a _ => some a

/-- A node that is pushed is there and not in the list, which has less than `2 ^ 32` nodes; a node
that is removed is in the list, and one that is changed elsewhere is not. -/
def Permitted (p : ListState α ν × List α) : ListOp α ν → Prop
  | push _ (some a) => (p.1.heap a).isSome = true ∧ a ∉ p.2 ∧ p.2.length + 1 < 4294967296
  | push _ none => True
  | pop _ => True
  | remove a => a ∈ p.2
  | elsewhere a _ => a ∉ p.2

instance (p : ListState α ν × List α) : DecidablePred (Permitted p)
  | push _ (some a) => inferInstanceAs
    (Decidable ((p.1.heap a).isSome = true ∧ a ∉ p.2 ∧ p.2.length + 1 < 4294967296))
  | push _ none => isTrue trivial
  | pop _ => isTrue trivial
  | remove a => inferInstanceAs (Decidable (a ∈ p.2))
  | elsewhere a _ => inferInstanceAs (Decidable (a ∉ p.2))

/-- The list and the queue next to each other. -/
def step (p : ListState α ν × List α) (op : ListOp α ν) : Option (ListState α ν × List α) :=
  (op.run p.1).map fun r => (r.1, op.deque p.2)

end ListOp

/-- An operation does what it does to the queue: it returns the same node, with null links if it
is taken from an end, and leaves the nodes alone that are neither in the list nor its argument. -/
structure Refines (s : ListState α ν) (xs : List α) (op : ListOp α ν) (t : ListState α ν) :
    Prop where
  runs : op.run s = some (t, op.returned xs)
  represents : Represents t (op.deque xs)
  popped : ∀ side, op = .pop side → ∀ a, op.returned xs = some a →
    ∃ n, t.heap a = some n ∧ n.prev = none ∧ n.next = none
  null : ∀ side, op = .pop side → (op.returned xs = none ↔ xs = [])
  frame : ∀ b, b ∉ xs → op.argument ≠ some b → t.heap b = s.heap b

/-- Every operation of a run does. -/
def RunRefines : ListState α ν → List α → List (ListOp α ν) → Prop
  | _, _, [] => True
  | s, xs, op :: ops => ∃ t, Refines s xs op t ∧ RunRefines t (op.deque xs) ops

/-- What is to be shown of an operation that takes nothing from an end. -/
theorem Rep.refines {xs : List α} {op : ListOp α ν} {t : ListState α ν}
    (hrep : Rep .tail t (op.deque xs)) (hrun : op.run s = some (t, op.returned xs))
    (hop : ∀ side, op ≠ .pop side)
    (hframe : ∀ b, b ∉ xs → op.argument ≠ some b → t.heap b = s.heap b) : Refines s xs op t where
  runs := hrun
  represents := hrep.represents
  popped side heq := absurd heq (hop side)
  null side heq := absurd heq (hop side)
  frame := hframe

theorem push_refines {xs : List α} (h : Rep .tail s xs) (side : Side) {a : α}
    (hop : (ListOp.push side (some a)).Permitted (s, xs)) :
    ∃ t, Rep .tail t ((ListOp.push side (some a) : ListOp α ν).deque xs) ∧
      Refines s xs (.push side (some a)) t := by
  obtain ⟨hsome, hnew, hlen⟩ := hop
  obtain ⟨n, hn⟩ := Option.isSome_iff_exists.mp hsome
  have hpop : ∀ side', (ListOp.push side (some a) : ListOp α ν) ≠ .pop side' :=
    fun _ heq => nomatch heq
  have hne {b : α} (hba : some a ≠ some b) : b ≠ a := fun heq => hba (congrArg some heq.symm)
  cases side with
  | tail =>
    obtain ⟨t, hrun, hrep, hkept⟩ := push_spec h hn hnew hlen
    refine ⟨t, hrep, Rep.refines hrep hrun hpop ?_⟩
    exact fun b hb hba => hkept b hb (hne hba)
  | head =>
    have hnew' : a ∉ xs.reverse := fun hmem => hnew (List.mem_reverse.mp hmem)
    have hrev : Rep .head s xs.reverse := h.reverse
    obtain ⟨t, hrun, hrep, hkept⟩ := push_spec hrev hn hnew' (by rwa [List.length_reverse])
    rw [← List.reverse_cons] at hrep
    refine ⟨t, hrep.of_head, Rep.refines hrep.of_head hrun hpop ?_⟩
    intro b hb hba
    exact hkept b (fun hmem => hb (List.mem_reverse.mp hmem)) (hne hba)

theorem pop_refines {xs : List α} (h : Rep .tail s xs) (side : Side) :
    ∃ t, Rep .tail t ((ListOp.pop side : ListOp α ν).deque xs) ∧ Refines s xs (.pop side) t := by
  have hnull : ∀ side', (ListOp.pop side : ListOp α ν) = .pop side' →
      ((ListOp.pop side : ListOp α ν).returned xs = none ↔ xs = []) := by
    intro _ _
    cases side with
    | head => exact List.head?_eq_none_iff
    | tail => exact List.getLast?_eq_none_iff
  cases side with
  | tail =>
    rcases List.eq_nil_or_concat' xs with rfl | ⟨zs, a, rfl⟩
    · refine ⟨s, h, pop_nil h, h.represents, ?_, hnull, fun _ _ _ => rfl⟩
      exact fun _ _ a ha => nomatch ha
    · obtain ⟨t, hrun, hrep, hlinks, hkept⟩ := pop_spec h
      have hdeque : (ListOp.pop .tail : ListOp α ν).deque (zs ++ [a]) = zs := List.dropLast_concat
      have hreturned : (ListOp.pop .tail : ListOp α ν).returned (zs ++ [a]) = some a :=
        List.getLast?_concat
      rw [← hdeque] at hrep
      rw [← hreturned] at hrun
      refine ⟨t, hrep, hrun, hrep.represents, ?_, hnull, fun b hb _ => hkept b hb⟩
      intro _ _ b hb
      rw [hreturned] at hb
      exact Option.some.inj hb ▸ hlinks
  | head =>
    cases xs with
    | nil =>
      refine ⟨s, h, pop_nil h.reverse, h.represents, ?_, hnull, fun _ _ _ => rfl⟩
      exact fun _ _ a ha => nomatch ha
    | cons a zs =>
      have hrev : Rep .head s (a :: zs).reverse := h.reverse
      rw [List.reverse_cons] at hrev
      obtain ⟨t, hrun, hrep, hlinks, hkept⟩ := pop_spec hrev
      have hrep := hrep.of_head
      refine ⟨t, hrep, hrun, hrep.represents, ?_, hnull, ?_⟩
      · intro _ _ b hb
        exact Option.some.inj hb ▸ hlinks
      · intro b hb _
        apply hkept b
        rwa [← List.reverse_cons, List.mem_reverse]

theorem remove_refines {xs : List α} (h : Rep .tail s xs) {a : α} (ha : a ∈ xs) :
    ∃ t, Rep .tail t ((ListOp.remove a : ListOp α ν).deque xs) ∧ Refines s xs (.remove a) t := by
  obtain ⟨before, after, rfl⟩ := List.append_of_mem ha
  obtain ⟨t, hrun, hrep, -, hkept⟩ := lambListRemove_spec h
  have hbefore : a ∉ before := by
    intro hmem
    exact (List.nodup_append.mp h.nodup).2.2 a hmem a List.mem_cons_self rfl
  have hdeque : (ListOp.remove a : ListOp α ν).deque (before ++ a :: after) = before ++ after := by
    rw [ListOp.deque, List.erase_append_right _ hbefore, List.erase_cons_head]
  rw [← hdeque] at hrep
  refine ⟨t, hrep, Rep.refines hrep ?_ (fun _ heq => nomatch heq) fun b hb _ => hkept b hb⟩
  rw [ListOp.run, hrun]
  rfl

theorem elsewhere_refines {xs : List α} (h : Rep .tail s xs) {a : α} (ha : a ∉ xs)
    (n : Option (LinkNode α ν)) :
    ∃ t, Rep .tail t ((ListOp.elsewhere a n).deque xs) ∧ Refines s xs (.elsewhere a n) t := by
  have hchain : Chain (Function.update s.heap a n) .tail xs := by
    apply h.chain.congr
    intro y hy
    apply Function.update_of_ne
    exact fun heq => ha (heq ▸ hy)
  have hrep : Rep .tail ⟨Function.update s.heap a n, s.list⟩ xs :=
    ⟨h.nodup, hchain, h.last, h.first, h.len⟩
  refine ⟨_, hrep, Rep.refines hrep rfl (fun _ heq => nomatch heq) ?_⟩
  intro b _ hb
  apply Function.update_of_ne
  exact fun heq => hb (congrArg some heq.symm)

/-- One operation, with the invariant that it keeps. -/
theorem step_refines {xs : List α} (h : Rep .tail s xs) {op : ListOp α ν}
    (hop : op.Permitted (s, xs)) : ∃ t, Rep .tail t (op.deque xs) ∧ Refines s xs op t := by
  cases op with
  | push side node =>
    cases node with
    | some a => exact push_refines h side hop
    | none =>
      have hrep : Rep .tail s ((ListOp.push side none : ListOp α ν).deque xs) := by
        cases side <;> exact h
      have hrun : (ListOp.push side none).run s = some (s, none) := by
        cases side <;> rfl
      exact ⟨s, hrep, Rep.refines hrep hrun (fun _ heq => nomatch heq) fun _ _ _ => rfl⟩
  | pop side => exact pop_refines h side
  | remove a => exact remove_refines h hop
  | elsewhere a n => exact elsewhere_refines h hop n

theorem run_refines (ops : List (ListOp α ν)) {xs : List α} (h : Rep .tail s xs)
    (hops : Guarded ListOp.step ListOp.Permitted (s, xs) ops) : RunRefines s xs ops := by
  induction ops generalizing s xs with
  | nil => trivial
  | cons op ops ih =>
    obtain ⟨hop, hrest⟩ := hops
    obtain ⟨t, hrep, hrefines⟩ := step_refines h hop
    refine ⟨t, hrefines, ih hrep (hrest _ ?_)⟩
    rw [Option.mem_def, ListOp.step, hrefines.runs]
    rfl

/-- A list made by `lamb_list_new` refines a double-ended queue of nodes, over any operations and
whatever the rest of the program does to other nodes. -/
theorem list_refines_deque (heap : LinkHeap α ν) (ops : List (ListOp α ν))
    (hops : Guarded ListOp.step ListOp.Permitted (⟨heap, lambListNew⟩, []) ops) :
    Represents ⟨heap, lambListNew⟩ [] ∧ RunRefines ⟨heap, lambListNew⟩ [] ops :=
  ⟨(rep_lambListNew heap).represents, run_refines ops (rep_lambListNew heap) hops⟩

/-- Pushes at both ends, a removal from the middle, and pops until the list is empty. -/
theorem list_refines_deque_run :
    let heap : LinkHeap Nat Unit := fun a => if a < 3 then some ⟨none, none, ()⟩ else none
    RunRefines ⟨heap, lambListNew⟩ [] [.push .tail (some 0), .push .head (some 1),
      .push .tail (some 2), .remove 0, .pop .tail, .pop .head, .pop .tail] :=
  (list_refines_deque _ _ (by decide)).2

/-! ## Queues of values -/

/-- `lamb_node_new`, with the address that `malloc` returns. -/
def lambNodeNew (s : ListState α ν) (node : α) (val : ν) : ListState α ν :=
  ⟨Function.update s.heap node (some ⟨none, none, val⟩), s.list⟩

/-- `lamb_queue_push`: there is no node if `malloc` fails. -/
def lambQueuePush (s : ListState α ν) (val : ν) : Option α → Option (ListState α ν × Option α)
  | some node => lambListRpush (lambNodeNew s node val) (some node)
  | none => lambListRpush s none

def lambQueuePop (s : ListState α ν) : Option (ListState α ν × Option α) := lambListLpop s

/-- The nodes of the list hold these values, from head to tail. -/
def Holds (s : ListState α ν) (vs : List ν) : Prop :=
  ∃ xs, Rep .tail s xs ∧ xs.map (fun a => (s.heap a).map LinkNode.val) = vs.map some

theorem push_val {t : ListState α ν} {p r : Option α} (h : push side s p = some (t, r)) (b : α) :
    (t.heap b).map LinkNode.val = (s.heap b).map LinkNode.val := by
  cases p with
  | none =>
    obtain ⟨rfl, -⟩ := Prod.mk.inj (Option.some.inj h)
    rfl
  | some a =>
    rw [push] at h
    split at h
    · obtain ⟨h₁, hs₁, h⟩ := Option.bind_eq_some_iff.mp h
      obtain ⟨h₂, hs₂, h⟩ := Option.bind_eq_some_iff.mp h
      obtain ⟨last, -, h⟩ := Option.bind_eq_some_iff.mp h
      obtain ⟨h₃, hs₃, h⟩ := Option.bind_eq_some_iff.mp h
      obtain ⟨rfl, -⟩ := Prod.mk.inj (Option.some.inj h)
      exact (LinkHeap.store_val hs₃ b).trans
        ((LinkHeap.store_val hs₂ b).trans (LinkHeap.store_val hs₁ b))
    · obtain ⟨h₁, hs₁, h⟩ := Option.bind_eq_some_iff.mp h
      obtain ⟨h₂, hs₂, h⟩ := Option.bind_eq_some_iff.mp h
      obtain ⟨rfl, -⟩ := Prod.mk.inj (Option.some.inj h)
      exact (LinkHeap.store_val hs₂ b).trans (LinkHeap.store_val hs₁ b)

theorem pop_val {t : ListState α ν} {r : Option α} (h : pop side s = some (t, r)) (b : α) :
    (t.heap b).map LinkNode.val = (s.heap b).map LinkNode.val := by
  rw [pop] at h
  split at h
  · obtain ⟨rfl, -⟩ := Prod.mk.inj (Option.some.inj h)
    rfl
  · obtain ⟨a, -, h⟩ := Option.bind_eq_some_iff.mp h
    obtain ⟨u, hu, h⟩ := Option.bind_eq_some_iff.mp h
    obtain ⟨h₁, hs₁, h⟩ := Option.bind_eq_some_iff.mp h
    obtain ⟨h₂, hs₂, h⟩ := Option.bind_eq_some_iff.mp h
    obtain ⟨rfl, -⟩ := Prod.mk.inj (Option.some.inj h)
    have hdetach : (u.heap b).map LinkNode.val = (s.heap b).map LinkNode.val := by
      rw [detach] at hu
      split at hu
      · obtain ⟨n, -, hu⟩ := Option.bind_eq_some_iff.mp hu
        obtain ⟨last, -, hu⟩ := Option.bind_eq_some_iff.mp hu
        obtain ⟨h₀, hs₀, hu⟩ := Option.bind_eq_some_iff.mp hu
        obtain rfl := Option.some.inj hu
        exact LinkHeap.store_val hs₀ b
      · obtain rfl := Option.some.inj hu
        rfl
    exact (LinkHeap.store_val hs₂ b).trans ((LinkHeap.store_val hs₁ b).trans hdetach)

/-- A value is put behind the others. -/
theorem lambQueuePush_holds {vs : List ν} (h : Holds s vs) {a : α} (ha : s.heap a = none)
    (hlen : vs.length + 1 < 4294967296) (v : ν) :
    ∃ t, lambQueuePush s v (some a) = some (t, some a) ∧ Holds t (vs ++ [v]) := by
  obtain ⟨xs, hrep, hvals⟩ := h
  have hnew : a ∉ xs := by
    intro hmem
    obtain ⟨n, hn⟩ := hrep.chain.mem hmem
    rw [ha] at hn
    exact nomatch hn
  have hkept (b : α) (hb : b ∈ xs) : (lambNodeNew s a v).heap b = s.heap b := by
    apply Function.update_of_ne
    exact fun heq => hnew (heq ▸ hb)
  have hrep' : Rep .tail (lambNodeNew s a v) xs :=
    ⟨hrep.nodup, hrep.chain.congr hkept, hrep.last, hrep.first, hrep.len⟩
  have hsize : xs.length = vs.length := by
    have hmap := congrArg List.length hvals
    rwa [List.length_map, List.length_map] at hmap
  have hnode : (lambNodeNew s a v).heap a = some ⟨none, none, v⟩ := Function.update_self a _ _
  obtain ⟨t, hrun, ht, -⟩ := push_spec hrep' hnode hnew (hsize ▸ hlen)
  refine ⟨t, hrun, xs ++ [a], ht, ?_⟩
  have hval := push_val hrun
  simp only [hval]
  rw [List.map_append, List.map_append, ← hvals]
  congr 1
  · exact List.map_congr_left fun b hb => congrArg _ (hkept b hb)
  · rw [List.map_singleton, hnode]
    rfl

/-- The first value is taken off, in its node. -/
theorem lambQueuePop_holds {v : ν} {vs : List ν} (h : Holds s (v :: vs)) :
    ∃ t a, lambQueuePop s = some (t, some a) ∧ (t.heap a).map LinkNode.val = some v ∧
      Holds t vs := by
  obtain ⟨xs, hrep, hvals⟩ := h
  cases xs with
  | nil => exact nomatch hvals
  | cons a xs =>
    have hrev : Rep .head s (a :: xs).reverse := hrep.reverse
    rw [List.reverse_cons] at hrev
    obtain ⟨t, hrun, ht, -, -⟩ := pop_spec hrev
    have hval := pop_val hrun
    obtain ⟨hv, hvs⟩ := List.cons.inj hvals
    refine ⟨t, a, hrun, (hval a).trans hv, xs, ht.of_head, ?_⟩
    simp only [hval]
    exact hvs

theorem lambQueuePop_nil (h : Holds s []) : lambQueuePop s = some (s, none) := by
  obtain ⟨xs, hrep, hvals⟩ := h
  obtain rfl := List.map_eq_nil_iff.mp hvals
  exact pop_nil hrep.reverse

end LambGateway.Container
