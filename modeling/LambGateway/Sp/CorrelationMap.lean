import LambGateway.Sp.Correlation
import Mathlib.Data.List.Induction

/-!
# The correlation store as one map

The nodes of the store, which hold decimal texts in the fields of hashes, are seen from outside
as one map from the carrier's ids to the data of messages: a look-up returns what the last
operation on its id has left, whatever happened to the other ids.
-/

namespace LambGateway.Sp

open Framework

inductive CacheOp where
  | set (msgId id : UInt64) (account company : Int32) (spcode : CString 20)
  | del (msgId : UInt64)

namespace CacheOp

def key : CacheOp → UInt64
  | set msgId _ _ _ _ => msgId
  | del msgId => msgId

/-- What the operation leaves under its key. -/
def value : CacheOp → Option Correlation
  | set _ id account company spcode => some ⟨id, account, company, spcode.text⟩
  | del _ => none

def apply (caches : LambCaches) : CacheOp → LambCaches
  | set msgId id account company spcode => lambSetCache caches msgId id account company spcode
  | del msgId => lambDelCache caches msgId

end CacheOp

/-- The store after the operations, on nodes that were empty. -/
def runOps (n : Nat) (ops : List CacheOp) : LambCaches :=
  ops.foldl CacheOp.apply (State.init n).caches

/-- The value of the last operation on a key, if there is one and it is not a removal. -/
def lastValue (ops : List CacheOp) (g : UInt64) : Option Correlation :=
  (ops.filter fun op => op.key = g).getLast?.bind CacheOp.value

/-- The outputs of `lamb_get_cache` where there is nothing. -/
def Correlation.zero : Correlation := ⟨0, 0, 0, []⟩

theorem lastValue_concat (ops : List CacheOp) (op : CacheOp) (g : UInt64) :
    lastValue (ops ++ [op]) g = if op.key = g then op.value else lastValue ops g := by
  rw [lastValue, List.filter_append]
  split
  · next h =>
    have hop : [op].filter (fun op => op.key = g) = [op] := by simp [h]
    rw [hop, List.getLast?_concat, Option.bind_some]
  · next h =>
    have hop : [op].filter (fun op => op.key = g) = [] := by simp [h]
    rw [hop, List.append_nil, lastValue]

theorem lambGetCache_apply (caches : LambCaches) (op : CacheOp) (g : UInt64) {size : Nat}
    (hsize : 21 ≤ size) :
    lambGetCache (op.apply caches) g size =
      if op.key = g then op.value.getD .zero else lambGetCache caches g size := by
  cases op with
  | set msgId id account company spcode =>
    change lambGetCache (lambSetCache caches msgId id account company spcode) g size = _
    split
    · next h =>
      change msgId = g at h
      subst h
      exact lambGetCache_lambSetCache_of_le caches msgId id account company spcode hsize
    · next h =>
      have hne : g ≠ msgId := Ne.symm h
      rw [lambGetCache_eq, entries_lambSetCache, Function.update_of_ne hne, ← lambGetCache_eq]
  | del msgId =>
    change lambGetCache (lambDelCache caches msgId) g size = _
    split
    · next h =>
      change msgId = g at h
      subst h
      apply lambGetCache_of_none
      rw [entries_lambDelCache, Function.update_self]
    · next h =>
      have hne : g ≠ msgId := Ne.symm h
      rw [lambGetCache_eq, entries_lambDelCache, Function.update_of_ne hne, ← lambGetCache_eq]

theorem lambGetCache_runOps (n : Nat) (ops : List CacheOp) (g : UInt64) {size : Nat}
    (hsize : 21 ≤ size) :
    lambGetCache (runOps n ops) g size = (lastValue ops g).getD .zero := by
  induction ops using List.reverseRecOn with
  | nil => exact lambGetCache_of_none rfl size
  | append_singleton ops op ih =>
    have hrun : runOps n (ops ++ [op]) = op.apply (runOps n ops) := List.foldl_concat ..
    rw [hrun, lambGetCache_apply _ op g hsize, lastValue_concat, ih]
    split <;> rfl

/-- On any number of nodes, and into any buffer with room for a code, a look-up gives what the
last operation on the key has left; it is the same without the operations on other keys. -/
theorem store_is_one_map (n : Nat) (ops : List CacheOp) (g : UInt64) (room : Nat) :
    lambGetCache (runOps n ops) g (21 + room) = (lastValue ops g).getD .zero ∧
      lambGetCache (runOps n ops) g (21 + room) =
        lambGetCache (runOps n (ops.filter fun op => op.key = g)) g (21 + room) := by
  have hsize : 21 ≤ 21 + room := Nat.le_add_right 21 room
  have hsame : lastValue (ops.filter fun op => op.key = g) g = lastValue ops g := by
    rw [lastValue, List.filter_filter, lastValue]
    simp only [Bool.and_self]
  refine ⟨lambGetCache_runOps n ops g hsize, ?_⟩
  rw [lambGetCache_runOps n ops g hsize, lambGetCache_runOps n _ g hsize, hsame]

end LambGateway.Sp
