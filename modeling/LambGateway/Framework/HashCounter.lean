import LambGateway.Framework.Decimal
import LambGateway.Framework.ShardedStore

/-!
# Counters in hashes

A field of a hash that is only ever incremented holds a signed 64-bit number as decimal text.
-/

namespace Framework

def hget (h : Option RedisHash) (field : Bytes) : Option Bytes := h.bind fun h => h field

/-- `HINCRBY`: a field that is not there counts from 0, and an increment that leaves the range of
64 bits is refused. -/
def hincrby (h : Option RedisHash) (field : Bytes) (n : Int64) : RedisHash :=
  let sum := ((hget h field).map scanInt).getD 0 + n.toInt
  if -2 ^ 63 ≤ sum ∧ sum < 2 ^ 63 then hmset h [(field, decimalInt sum)] else h.getD fun _ => none

/-- The number in the field after an increment. -/
def counterAdd (b n : Int64) : Int64 :=
  if -2 ^ 63 ≤ b.toInt + n.toInt ∧ b.toInt + n.toInt < 2 ^ 63 then b + n else b

theorem hget_hmset_singleton (h : Option RedisHash) (field value : Bytes) :
    hget (some (hmset h [(field, value)])) field = some value :=
  Function.update_self ..

theorem hget_hmset {fields : List (Bytes × Bytes)} (hnames : (fields.map Prod.fst).Nodup)
    {field value : Bytes} (hp : (field, value) ∈ fields) (h : Option RedisHash) :
    hget (some (hmset h fields)) field = some value := by
  have hread := hmget_hmset h hnames
  rw [hmget, List.map_map] at hread
  exact List.map_inj_left.mp hread (field, value) hp

theorem hincrby_eq {h : Option RedisHash} {field : Bytes} {b : Int64}
    (hb : hget h field = some (decimalInt b.toInt)) (n : Int64) :
    hget (some (hincrby h field n)) field = some (decimalInt (counterAdd b n).toInt) := by
  unfold hincrby counterAdd
  rw [hb, Option.map_some, scanInt_decimalInt, Option.getD_some]
  dsimp only
  split
  · next hrange =>
    have hsum : (b + n).toInt = b.toInt + n.toInt := by
      rw [Int64.toInt_add]
      exact Int.bmod_eq_of_le (by omega) (by omega)
    rw [hget_hmset_singleton, hsum]
  · cases h with
    | none => exact nomatch hb
    | some h => exact hb

/-- The first increment makes the field. -/
theorem hincrby_new {h : Option RedisHash} {field : Bytes} (hnone : hget h field = none)
    (n : Int64) : hget (some (hincrby h field n)) field = some (decimalInt n.toInt) := by
  have hlo := n.le_toInt
  have hhi := n.toInt_lt
  unfold hincrby
  rw [hnone]
  simp only [Option.map_none, Option.getD_none, Int.zero_add]
  rw [if_pos ⟨hlo, hhi⟩, hget_hmset_singleton]

end Framework
