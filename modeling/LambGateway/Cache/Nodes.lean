import LambGateway.Framework.Decimal
import Mathlib.Data.List.ReduceOption

/-!
# The nodes of a cache

The nodes of a list are connected one after the other, and the connected ones are to stand
side by side from slot 0 on: the callers take a key modulo their number as an index.
-/

namespace LambGateway.Cache

open Framework

/-- `strtok`: the next token, and the text behind the delimiter that ends it. -/
def strtok (delim : UInt8) (text : Bytes) : Option (Bytes × Bytes) :=
  match text.dropWhile (· == delim) with
  | [] => none
  | b :: rest =>
    some ((b :: rest).takeWhile (· != delim), ((b :: rest).dropWhile (· != delim)).drop 1)

/-- `lamb_hp_parse`, into a zeroed array; the port is written only if the text has one. -/
def lambHpParse (str : Bytes) (port : Int32) : Bytes × Int32 :=
  match strtok 58 (cstr str) with
  | none => ([], port)
  | some (host, rest) =>
    match strtok 58 rest with
    | none => (host.take 15, port)
    | some (number, _) => (host.take 15, atoi number)

/-- What the system grants to one entry: memory, a connection, and the answer `OK` to `SELECT`. -/
structure Attempt where
  memory : Bool
  context : Bool
  select : Bool
  deriving DecidableEq

structure Node where
  host : Bytes
  port : Int32
  db : Int32
  deriving DecidableEq

/-- `lamb_cache_connect` without a password: the handle, or the error. -/
def lambCacheConnect (a : Attempt) (host : Bytes) (port db : Int32) : Except Int32 Node :=
  if !a.context then .error 1
  else if a.select then .ok ⟨host, port, db⟩
  else .error 2

/-- The allocated node, or `none` where the loop takes one of its two failure branches. -/
def attemptNode (a : Attempt) (host : Bytes) (port db : Int32) : Option Node :=
  if a.memory then
    match lambCacheConnect a host port db with
    | .ok node => some node
    | .error _ => none
  else none

def Attempt.succeeds (a : Attempt) : Bool := a.memory && a.context && a.select

theorem attemptNode_isSome (a : Attempt) (host : Bytes) (port db : Int32) :
    (attemptNode a host port db).isSome = a.succeeds := by
  obtain ⟨memory, context, select⟩ := a
  cases memory <;> cases context <;> cases select <;> rfl

/-- `lamb_caches_t`; `none` is a slot that still holds what the memory held before. -/
structure Caches where
  len : Nat
  nodes : Nat → Option Node

/-- `cache->nodes[j] = node; cache->len++` -/
def Caches.put (cache : Caches) (j : Nat) (node : Node) : Caches where
  len := cache.len + 1
  nodes := Function.update cache.nodes j (some node)

/-- The step of `j` after a failure: `if (j > 0) j--`, then the `j++` of the loop. -/
def stepBack (j : Nat) : Nat := (if 0 < j then j - 1 else j) + 1

section Connect

variable (tries : Nat → Attempt) (db : Int32)

/-- The loop from entry `i` and slot `j` on. -/
def connectLoop (len : Nat) : List (Option Bytes) → Nat → Nat → Int32 → Caches → Caches
  | [], _, _, _, cache => cache
  | none :: _, _, _, _, cache => cache
  | some str :: entries, i, j, port, cache =>
    if len ≤ j then cache
    else if (cstr str).isEmpty then cache
    else
      let hp := lambHpParse str port
      match attemptNode (tries i) hp.1 hp.2 db with
      | some node => connectLoop len entries (i + 1) (j + 1) hp.2 (cache.put j node)
      | none => connectLoop len entries (i + 1) (stepBack j) hp.2 cache

/-- What becomes of each entry before the first `NULL` or empty one. -/
def outcomes : List (Option Bytes) → Nat → Int32 → List (Option Node)
  | [], _, _ => []
  | none :: _, _, _ => []
  | some str :: entries, i, port =>
    if (cstr str).isEmpty then []
    else
      let hp := lambHpParse str port
      attemptNode (tries i) hp.1 hp.2 db :: outcomes entries (i + 1) hp.2

/-- `lamb_nodes_connect`, with `tries i` for what the system does about entry `i`. -/
def lambNodesConnect (len : Int32) (nodes : List (Option Bytes)) (size : Int32) : Caches :=
  connectLoop tries db len.toInt.toNat (nodes.take size.toInt.toNat) 0 0 0 ⟨0, fun _ => none⟩

/-- The nodes that connect, in the order of the array. -/
def connected (nodes : List (Option Bytes)) (size : Int32) : List Node :=
  (outcomes tries db (nodes.take size.toInt.toNat) 0 0).reduceOption

end Connect

/-- The number of entries before the first `NULL` or empty one. -/
def listed (nodes : List (Option Bytes)) (size : Int32) : Nat :=
  ((nodes.take size.toInt.toNat).takeWhile fun entry =>
    match entry with
    | none => false
    | some str => !(cstr str).isEmpty).length

/-- The slots hold exactly the given nodes, and every key selects one of them. -/
structure Compact (cache : Caches) (nodes : List Node) : Prop where
  len_eq : cache.len = nodes.length
  slot (j : Nat) : j < cache.len → cache.nodes j = nodes[j]?
  select (key : UInt64) : 0 < cache.len →
    ∃ node ∈ nodes, cache.nodes (key.toNat % cache.len) = some node

/-- The index of a key is below the length, so the slots decide what a key selects. -/
theorem compact_of_slots {cache : Caches} {nodes : List Node} (hlen : cache.len = nodes.length)
    (hslot : ∀ j < cache.len, cache.nodes j = nodes[j]?) : Compact cache nodes := by
  refine ⟨hlen, hslot, ?_⟩
  intro key hpos
  have hlt : key.toNat % cache.len < cache.len := Nat.mod_lt _ hpos
  have hidx : key.toNat % cache.len < nodes.length := by omega
  refine ⟨nodes[key.toNat % cache.len], List.getElem_mem hidx, ?_⟩
  rw [hslot _ hlt, List.getElem?_eq_getElem hidx]

/-- The loop over outcomes alone. -/
def place (len : Nat) : List (Option Node) → Nat → Caches → Caches
  | [], _, cache => cache
  | some node :: rest, j, cache =>
    if len ≤ j then cache else place len rest (j + 1) (cache.put j node)
  | none :: rest, j, cache => if len ≤ j then cache else place len rest (stepBack j) cache

theorem connectLoop_eq_place (tries : Nat → Attempt) (db : Int32) (len : Nat)
    (entries : List (Option Bytes)) (i j : Nat) (port : Int32) (cache : Caches) :
    connectLoop tries db len entries i j port cache =
      place len (outcomes tries db entries i port) j cache := by
  induction entries generalizing i j port cache with
  | nil => rfl
  | cons entry entries ih =>
    cases entry with
    | none => rfl
    | some str =>
      rw [connectLoop, outcomes]
      by_cases hempty : (cstr str).isEmpty = true
      · rw [if_pos hempty, if_pos hempty, place, ite_self]
      · rw [if_neg hempty, if_neg hempty]
        cases hnode : attemptNode (tries i) (lambHpParse str port).1 (lambHpParse str port).2 db with
        | none => simp only [hnode, place, ih]
        | some node => simp only [hnode, place, ih]

theorem outcomes_isSome (tries : Nat → Attempt) (db : Int32) (entries : List (Option Bytes))
    (i : Nat) (port : Int32) :
    (outcomes tries db entries i port).map Option.isSome =
      (List.range' i (entries.takeWhile fun entry =>
        match entry with
        | none => false
        | some str => !(cstr str).isEmpty).length).map fun k => (tries k).succeeds := by
  induction entries generalizing i port with
  | nil => rfl
  | cons entry entries ih =>
    cases entry with
    | none => rfl
    | some str =>
      rw [outcomes]
      by_cases hempty : (cstr str).isEmpty = true
      · rw [if_pos hempty, List.takeWhile_cons_of_neg (by simp [hempty])]
        rfl
      · rw [if_neg hempty, List.takeWhile_cons_of_pos (by simp [hempty]), List.length_cons,
          List.range'_succ, List.map_cons, List.map_cons, attemptNode_isSome, ih]

theorem stepBack_of_pos {j : Nat} (hj : 0 < j) : stepBack j = j := by
  rw [stepBack, if_pos hj]
  omega

theorem Caches.put_of_ne (cache : Caches) {j k : Nat} (node : Node) (h : k ≠ j) :
    (cache.put j node).nodes k = cache.nodes k :=
  Function.update_of_ne h _ _

theorem Caches.put_self (cache : Caches) (j : Nat) (node : Node) :
    (cache.put j node).nodes j = some node :=
  Function.update_self j _ _

/-- A slot below the index is not written again. -/
theorem place_of_lt (len : Nat) (found : List (Option Node)) {j k : Nat} (cache : Caches)
    (hk : k < j) : (place len found j cache).nodes k = cache.nodes k := by
  induction found generalizing j cache with
  | nil => rfl
  | cons outcome rest ih =>
    cases outcome with
    | none =>
      rw [place]
      split
      · rfl
      · rw [stepBack_of_pos (by omega), ih cache hk]
    | some node =>
      rw [place]
      split
      · rfl
      · rw [ih (cache.put j node) (by omega), Caches.put_of_ne cache node (by omega)]

/-- From slot 1 on a failure steps back to the same slot, so the rest of the array is filled
with the nodes that connect, as far as there is room. -/
theorem place_of_pos (len : Nat) (found : List (Option Node)) {j : Nat} (cache : Caches)
    (hj : 0 < j) :
    (place len found j cache).len = cache.len + (found.reduceOption.take (len - j)).length ∧
      ∀ k < (found.reduceOption.take (len - j)).length,
        (place len found j cache).nodes (j + k) = found.reduceOption[k]? := by
  induction found generalizing j cache with
  | nil =>
    refine ⟨by simp [place], ?_⟩
    intro k hk
    simp at hk
  | cons outcome rest ih =>
    by_cases hroom : len ≤ j
    · have hzero : len - j = 0 := by omega
      have hsame : place len (outcome :: rest) j cache = cache := by
        cases outcome <;> rw [place, if_pos hroom]
      rw [hsame, hzero, List.take_zero]
      refine ⟨rfl, ?_⟩
      intro k hk
      simp at hk
    · cases outcome with
      | none =>
        rw [place, if_neg hroom, stepBack_of_pos hj, List.reduceOption_cons_of_none]
        exact ih cache hj
      | some node =>
        have hsub : len - j = (len - (j + 1)) + 1 := by omega
        obtain ⟨hlen, hnodes⟩ := ih (cache.put j node) (Nat.add_one_pos j)
        rw [place, if_neg hroom, List.reduceOption_cons_of_some, hsub, List.take_succ_cons,
          List.length_cons]
        refine ⟨?_, ?_⟩
        · rw [hlen]
          change cache.len + 1 + _ = _
          omega
        · intro k hk
          cases k with
          | zero =>
            change (place len rest (j + 1) (cache.put j node)).nodes j = some node
            rw [place_of_lt len rest _ (Nat.lt_add_one j), Caches.put_self]
          | succ k =>
            rw [← Nat.add_assoc, Nat.add_right_comm, hnodes k (by omega), List.getElem?_cons_succ]

/-- Where the first entry connects, the slots are filled from 0 on. -/
theorem place_some {len : Nat} (hlen : 0 < len) (node : Node) (rest : List (Option Node)) :
    Compact (place len (some node :: rest) 0 ⟨0, fun _ => none⟩)
      ((some node :: rest).reduceOption.take len) := by
  obtain ⟨hcount, hnodes⟩ :=
    place_of_pos len rest ((⟨0, fun _ => none⟩ : Caches).put 0 node) (Nat.succ_pos 0)
  obtain ⟨room, rfl⟩ : ∃ room, len = room + 1 := ⟨len - 1, by omega⟩
  have hput : place (room + 1) (some node :: rest) 0 ⟨0, fun _ => none⟩ =
      place (room + 1) rest 1 ((⟨0, fun _ => none⟩ : Caches).put 0 node) := by
    rw [place, if_neg (by omega)]
  have htotal : (place (room + 1) (some node :: rest) 0 ⟨0, fun _ => none⟩).len =
      (node :: rest.reduceOption.take room).length := by
    rw [hput, hcount, List.length_cons, Nat.add_comm]
    rfl
  rw [List.reduceOption_cons_of_some, List.take_succ_cons]
  refine compact_of_slots htotal ?_
  intro k hk
  rw [htotal, List.length_cons] at hk
  rw [hput]
  cases k with
  | zero =>
    rw [place_of_lt _ rest _ (Nat.succ_pos 0), Caches.put_self]
    rfl
  | succ k =>
    have hroom : k < (rest.reduceOption.take room).length := by omega
    rw [Nat.add_comm k 1, hnodes k hroom, Nat.add_comm 1 k, List.getElem?_cons_succ,
      List.getElem?_take_of_lt (by rw [List.length_take] at hroom; omega)]

/-- Where the first entry fails, slot 0 is passed over: one node less fits, and slot 0 keeps
what the memory held before. -/
theorem place_none {len : Nat} (hlen : 0 < len) (rest : List (Option Node)) :
    (place len (none :: rest) 0 ⟨0, fun _ => none⟩).len =
        (rest.reduceOption.take (len - 1)).length ∧
      (place len (none :: rest) 0 ⟨0, fun _ => none⟩).nodes 0 = none := by
  have hskip : place len (none :: rest) 0 ⟨0, fun _ => none⟩ =
      place len rest 1 ⟨0, fun _ => none⟩ := by
    rw [place, if_neg (by omega)]
    rfl
  rw [hskip]
  refine ⟨?_, ?_⟩
  · rw [(place_of_pos len rest _ (Nat.succ_pos 0)).1, Nat.zero_add]
  · rw [place_of_lt len rest _ (Nat.succ_pos 0)]

theorem place_compact_iff (len : Nat) (found : List (Option Node)) :
    Compact (place len found 0 ⟨0, fun _ => none⟩) (found.reduceOption.take len) ↔
      len = 0 ∨ found.reduceOption = [] ∨ ∃ node, found.head? = some (some node) := by
  rcases Nat.eq_zero_or_pos len with rfl | hlen
  · have hsame : place 0 found 0 ⟨0, fun _ => none⟩ = ⟨0, fun _ => none⟩ := by
      cases found with
      | nil => rfl
      | cons outcome rest => cases outcome <;> rw [place, if_pos (Nat.zero_le 0)]
    rw [hsame, List.take_zero]
    exact iff_of_true (compact_of_slots rfl fun k hk => absurd hk (Nat.not_lt_zero k)) (Or.inl rfl)
  · cases found with
    | nil =>
      refine iff_of_true ?_ (Or.inr (Or.inl rfl))
      rw [List.reduceOption_nil, List.take_nil]
      exact compact_of_slots rfl fun k hk => absurd hk (Nat.not_lt_zero k)
    | cons outcome rest =>
      cases outcome with
      | some node => exact iff_of_true (place_some hlen node rest) (Or.inr (Or.inr ⟨node, rfl⟩))
      | none =>
        obtain ⟨hcount, hslot⟩ := place_none hlen rest
        rw [List.reduceOption_cons_of_none]
        constructor
        · intro h
          -- slot 0 holds no node, so the compact array is empty
          have hzero : ¬ 0 < (place len (none :: rest) 0 ⟨0, fun _ => none⟩).len := by
            intro hpos
            have hidx : 0 < (rest.reduceOption.take len).length := h.len_eq ▸ hpos
            have hread := h.slot 0 hpos
            rw [hslot, List.getElem?_eq_getElem hidx] at hread
            exact Option.some_ne_none _ hread.symm
          have hnil : (rest.reduceOption.take len).length = 0 := by
            rw [← h.len_eq]
            omega
          refine Or.inr (Or.inl (List.length_eq_zero_iff.mp ?_))
          rw [List.length_take] at hnil
          omega
        · rintro (hz | hnil | ⟨node, hhead⟩)
          · omega
          · rw [hnil, List.take_nil] at hcount
            rw [hnil, List.take_nil]
            refine compact_of_slots hcount ?_
            intro k hk
            rw [hcount] at hk
            exact absurd hk (Nat.not_lt_zero k)
          · cases hhead

theorem outcomes_length_le (tries : Nat → Attempt) (db : Int32) (entries : List (Option Bytes))
    (i : Nat) (port : Int32) : (outcomes tries db entries i port).length ≤ entries.length := by
  induction entries generalizing i port with
  | nil => exact Nat.le_refl 0
  | cons entry entries ih =>
    cases entry with
    | none => exact Nat.zero_le _
    | some str =>
      rw [outcomes]
      split
      · exact Nat.zero_le _
      · exact Nat.succ_le_succ (ih _ _)

section Exact

variable (tries : Nat → Attempt) (db : Int32)

theorem lambNodesConnect_eq_place (len : Int32) (nodes : List (Option Bytes)) (size : Int32) :
    lambNodesConnect tries db len nodes size =
      place len.toInt.toNat (outcomes tries db (nodes.take size.toInt.toNat) 0 0) 0
        ⟨0, fun _ => none⟩ :=
  connectLoop_eq_place ..

theorem connected_eq_nil_iff (nodes : List (Option Bytes)) (size : Int32) :
    connected tries db nodes size = [] ↔ ∀ i < listed nodes size, (tries i).succeeds = false := by
  have hsome := outcomes_isSome tries db (nodes.take size.toInt.toNat) 0 0
  have hnil : connected tries db nodes size = [] ↔
      ∀ b ∈ (outcomes tries db (nodes.take size.toInt.toNat) 0 0).map Option.isSome, b = false := by
    rw [connected, List.eq_nil_iff_forall_not_mem]
    simp only [List.reduceOption_mem_iff, List.forall_mem_map]
    constructor
    · intro h outcome houtcome
      cases outcome with
      | none => rfl
      | some node => exact absurd houtcome (h node)
    · intro h node hnode
      cases h (some node) hnode
  rw [hnil, hsome, List.forall_mem_map]
  constructor
  · intro h i hi
    exact h i (by simpa [listed] using hi)
  · intro h i hi
    exact h i (by simpa [listed] using hi)

theorem head_connects_iff (nodes : List (Option Bytes)) (size : Int32) :
    (∃ node, (outcomes tries db (nodes.take size.toInt.toNat) 0 0).head? = some (some node)) ↔
      0 < listed nodes size ∧ (tries 0).succeeds = true := by
  have hsome := outcomes_isSome tries db (nodes.take size.toInt.toNat) 0 0
  change _ = (List.range' 0 (listed nodes size)).map _ at hsome
  cases hfound : outcomes tries db (nodes.take size.toInt.toNat) 0 0 with
  | nil =>
    rw [hfound] at hsome
    have hzero : listed nodes size = 0 := by simpa using (congrArg List.length hsome).symm
    simp [hzero]
  | cons outcome rest =>
    rw [hfound] at hsome
    obtain ⟨count, hcount⟩ : ∃ count, listed nodes size = count + 1 := by
      refine ⟨rest.length, ?_⟩
      simpa using (congrArg List.length hsome).symm
    rw [hcount, List.range'_succ, List.map_cons, List.map_cons] at hsome
    have hhead : outcome.isSome = (tries 0).succeeds := (List.cons.inj hsome).1
    rw [hcount, ← hhead, List.head?_cons]
    cases outcome <;> simp

/-- The slots are compact if and only if there is no room, or no entry connects, or the very
first entry does. -/
theorem nodes_compact_iff (len : Int32) (nodes : List (Option Bytes)) (size : Int32) :
    Compact (lambNodesConnect tries db len nodes size)
        ((connected tries db nodes size).take len.toInt.toNat) ↔
      len ≤ 0 ∨ (∀ i < listed nodes size, (tries i).succeeds = false) ∨
        (tries 0).succeeds = true := by
  have hroom : len.toInt.toNat = 0 ↔ len ≤ 0 := by
    rw [Int32.le_iff_toInt_le, Int32.toInt_zero]
    omega
  rw [lambNodesConnect_eq_place, connected, place_compact_iff, hroom, ← connected,
    connected_eq_nil_iff, head_connects_iff]
  constructor
  · rintro (h | h | ⟨_, h⟩)
    · exact Or.inl h
    · exact Or.inr (Or.inl h)
    · exact Or.inr (Or.inr h)
  · rintro (h | h | h)
    · exact Or.inl h
    · exact Or.inr (Or.inl h)
    · rcases Nat.eq_zero_or_pos (listed nodes size) with hzero | hpos
      · refine Or.inr (Or.inl ?_)
        intro i hi
        omega
      · exact Or.inr (Or.inr ⟨hpos, h⟩)

/-- The callers go on only if all entries connect, and then no slot is passed over. -/
theorem compact_of_len_eq_size (len : Int32) (nodes : List (Option Bytes)) (size : Int32)
    (hsize : 0 < size)
    (hall : (lambNodesConnect tries db len nodes size).len = size.toInt.toNat) :
    Compact (lambNodesConnect tries db len nodes size)
      ((connected tries db nodes size).take len.toInt.toNat) := by
  have hpos : 0 < size.toInt.toNat := by
    rw [Int32.lt_iff_toInt_lt, Int32.toInt_zero] at hsize
    omega
  have hle := outcomes_length_le tries db (nodes.take size.toInt.toNat) 0 0
  rw [lambNodesConnect_eq_place] at hall ⊢
  rw [connected]
  generalize outcomes tries db (nodes.take size.toInt.toNat) 0 0 = found at hall hle ⊢
  rw [List.length_take] at hle
  rcases Nat.eq_zero_or_pos len.toInt.toNat with hzero | hlen
  · exact (place_compact_iff len.toInt.toNat found).mpr (Or.inl hzero)
  · cases found with
    | nil =>
      change 0 = _ at hall
      omega
    | cons outcome rest =>
      cases outcome with
      | some node => exact place_some hlen node rest
      | none =>
        rw [(place_none hlen rest).1, List.length_take] at hall
        have hrest := List.reduceOption_length_le rest
        rw [List.length_cons] at hle
        omega

end Exact

/-- The first of two nodes refuses: one is connected, and it does not stand in slot 0. -/
theorem first_refused :
    ¬ Compact
      (lambNodesConnect (fun i => ⟨true, i != 0, true⟩) 1 16
        [some (ascii "10.0.0.1:6379"), some (ascii "10.0.0.2:6379")] 2)
      ((connected (fun i => ⟨true, i != 0, true⟩) 1
        [some (ascii "10.0.0.1:6379"), some (ascii "10.0.0.2:6379")] 2).take 16) := by
  intro h
  have hslot := h.slot 0 (by decide)
  revert hslot
  decide

end LambGateway.Cache
