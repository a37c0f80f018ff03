import LambGateway.Framework.CText
import Mathlib.Data.List.Nodup
import Mathlib.Logic.Function.Basic

/-!
# Sharded stores

Several nodes, each a table from text keys to values. A key is sent to one node and written
there under a name; if different keys have different names, the nodes together are one map.
The hash commands of a node are given by what they do to the value of a key.
-/

namespace Framework

abbrev Shards (V : Type*) := Nat → Bytes → Option V

namespace Shards

variable {K V : Type*}

/-- Give a name a value on one node, or remove it there. -/
def put (s : Shards V) (i : Nat) (name : Bytes) (v : Option V) : Shards V :=
  fun j k => if j = i ∧ k = name then v else s j k

/-- The nodes as one map. -/
def view (route : K → Nat) (name : K → Bytes) (s : Shards V) : K → Option V :=
  fun k => s (route k) (name k)

theorem view_put [DecidableEq K] {route : K → Nat} {name : K → Bytes}
    (hname : Function.Injective name) (s : Shards V) (k : K) (v : Option V) :
    view route name (s.put (route k) (name k) v) = Function.update (view route name s) k v := by
  funext l
  by_cases hl : l = k
  · subst hl
    simp [view, put]
  · have hne : name l ≠ name k := fun h => hl (hname h)
    simp [view, put, hl, hne]

end Shards

abbrev RedisHash := Bytes → Option Bytes

/-- The hashes of one node. -/
abbrev RedisNode := Bytes → Option RedisHash

/-- `HMSET`: set fields of the hash, which is made if there is none. -/
def hmset (h : Option RedisHash) (fields : List (Bytes × Bytes)) : RedisHash :=
  fields.foldl (fun h p => Function.update h p.1 (some p.2)) (h.getD fun _ => none)

/-- `HMGET`: the values of fields, nil where there is none. -/
def hmget (h : Option RedisHash) (fields : List Bytes) : List (Option Bytes) :=
  fields.map fun f => h.bind fun h => h f

theorem hmset_cons (h : Option RedisHash) (p : Bytes × Bytes) (fields : List (Bytes × Bytes)) :
    hmset h (p :: fields) =
      hmset (some (Function.update (h.getD fun _ => none) p.1 (some p.2))) fields :=
  rfl

theorem hmset_of_not_mem (h : Option RedisHash) {fields : List (Bytes × Bytes)} {f : Bytes}
    (hf : f ∉ fields.map Prod.fst) : hmset h fields f = h.bind fun h => h f := by
  induction fields generalizing h with
  | nil => cases h <;> rfl
  | cons p fields ih =>
    rw [List.map_cons, List.mem_cons, not_or] at hf
    rw [hmset_cons, ih _ hf.2]
    change Function.update (h.getD fun _ => none) p.1 (some p.2) f = _
    rw [Function.update_of_ne hf.1]
    cases h <;> rfl

/-- What the hash has held counts only in the fields that are not set. -/
theorem hmset_congr {h h' : Option RedisHash} {fields : List (Bytes × Bytes)}
    (hsame : ∀ f, f ∉ fields.map Prod.fst → (h.bind fun h => h f) = h'.bind fun h => h f) :
    hmset h fields = hmset h' fields := by
  induction fields generalizing h h' with
  | nil =>
    funext f
    have hnil := hsame f List.not_mem_nil
    cases h <;> cases h' <;> exact hnil
  | cons p fields ih =>
    rw [hmset_cons, hmset_cons]
    apply ih
    intro f hf
    change Function.update _ p.1 _ f = Function.update _ p.1 _ f
    by_cases hp : f = p.1
    · rw [hp, Function.update_self, Function.update_self]
    · rw [Function.update_of_ne hp, Function.update_of_ne hp]
      have hold := hsame f (by simpa [hp] using hf)
      cases h <;> cases h' <;> exact hold

/-- Fields with different names are read as they have been set. -/
theorem hmget_hmset (h : Option RedisHash) {fields : List (Bytes × Bytes)}
    (hnames : (fields.map Prod.fst).Nodup) :
    hmget (some (hmset h fields)) (fields.map Prod.fst) = fields.map fun p => some p.2 := by
  induction fields generalizing h with
  | nil => rfl
  | cons p fields ih =>
    obtain ⟨hp, hrest⟩ := List.nodup_cons.mp hnames
    have hhead : hmset h (p :: fields) p.1 = some p.2 := by
      rw [hmset_cons, hmset_of_not_mem _ hp]
      exact Function.update_self ..
    change hmset h (p :: fields) p.1 :: hmget _ (fields.map Prod.fst) = _
    rw [hhead, List.map_cons, hmset_cons, ih _ hrest]

end Framework
