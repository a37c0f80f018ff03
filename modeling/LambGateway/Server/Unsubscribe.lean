import LambGateway.Framework.Decimal
import LambGateway.Framework.ShardedStore
import Mathlib.Data.List.Basic
import Mathlib.Data.List.Induction

/-!
# Unsubscribed numbers

The server of an account writes a key for each number that unsubscribes and looks the key up
before a message is sent. The servers of all accounts share the nodes; the writer and the reader
each compute the node and the key on their own.
-/

namespace LambGateway.Server

open Framework

/-- A number as the server takes it from a text: `unsigned long phone = atol(number)`. -/
def phoneOf (number : Bytes) : UInt64 := (atol number).toUInt64

/-- The key `%d.%lu` of an account and a number. -/
def numberKey (k : Int32 × UInt64) : Bytes :=
  decimalInt k.1.toInt ++ 46 :: decimal k.2.toNat

def numberNode (len : Nat) (k : Int32 × UInt64) : Nat := k.2.toNat % len

/-- The nodes of a cache whose keys have plain values. -/
structure NumberCaches (V : Type) where
  len : Nat
  len_pos : 0 < len
  nodes : Shards V

def NumberCaches.init {V : Type} (n : Nat) : NumberCaches V :=
  ⟨n + 1, Nat.succ_pos n, fun _ _ => none⟩

/-- The nodes as one map from accounts and numbers. -/
def NumberCaches.entries {V : Type} (caches : NumberCaches V) : Int32 × UInt64 → Option V :=
  Shards.view (numberNode caches.len) numberKey caches.nodes

/-- One round of `lamb_unsubscribe_loop`, with a string from the list: `SET %d.%lu 1`. -/
def lambUnsubscribeLoop (unsubscribe : NumberCaches Bytes) (aid : Int32) (val : Bytes) :
    NumberCaches Bytes :=
  let phone := phoneOf val
  if 0 < phone then
    let i := phone.toNat % unsubscribe.len
    { unsubscribe with nodes := unsubscribe.nodes.put i (numberKey (aid, phone)) (some (ascii "1")) }
  else unsubscribe

/-- `lamb_check_unsubscribe`: `EXISTS %d.%lu`. -/
def lambCheckUnsubscribe (cache : NumberCaches Bytes) (id : Int32) (number : Bytes) : Bool :=
  let phone := phoneOf number
  if 0 < phone then
    let i := phone.toNat % cache.len
    (cache.nodes i (numberKey (id, phone))).isSome
  else false

/-- The servers process strings, each one in the server of an account. -/
def unsubscribeAll (n : Nat) (events : List (Int32 × Bytes)) : NumberCaches Bytes :=
  events.foldl (fun unsubscribe e => lambUnsubscribeLoop unsubscribe e.1 e.2) (.init n)

/-! ## Numbers and keys -/

theorem phoneOf_eq_iff (v s : Bytes) : phoneOf v = phoneOf s ↔ atol v = atol s := by
  constructor
  · intro h
    have hback := congrArg UInt64.toInt64 h
    exact hback
  · exact congrArg Int64.toUInt64

theorem phoneOf_pos_iff (s : Bytes) : 0 < phoneOf s ↔ atol s ≠ 0 := by
  have hzero : phoneOf s = 0 ↔ atol s = 0 := by
    constructor
    · exact fun h => congrArg UInt64.toInt64 h
    · exact fun h => congrArg Int64.toUInt64 h
  rw [UInt64.pos_iff_ne_zero, Ne, hzero]

theorem dot_not_mem_decimal (n : Nat) : 46 ∉ decimal n := by
  intro h
  have hdigit := decimal_isDigit h
  revert hdigit
  decide

theorem dot_not_mem_decimalInt (i : Int) : 46 ∉ decimalInt i := by
  cases i with
  | ofNat n => exact dot_not_mem_decimal n
  | negSucc n =>
    rw [decimalInt, List.mem_cons, not_or]
    exact ⟨by decide, dot_not_mem_decimal _⟩

theorem numberKey_injective : Function.Injective numberKey := by
  intro x y h
  have hx := dot_not_mem_decimalInt x.1.toInt
  have hphone := dot_not_mem_decimal x.2.toNat
  obtain ⟨hid, -, hphone⟩ := (List.append_cons_inj_of_notMem hx hphone).mp h
  have hid : x.1 = y.1 := by rw [← atoi_decimalInt x.1, hid, atoi_decimalInt]
  have hphone : x.2 = y.2 := UInt64.toNat_inj.mp (decimal_injective hphone)
  exact Prod.ext hid hphone

/-! ## Writer and reader -/

theorem entries_lambUnsubscribeLoop (unsubscribe : NumberCaches Bytes) (aid : Int32)
    (val : Bytes) :
    (lambUnsubscribeLoop unsubscribe aid val).entries =
      if 0 < phoneOf val then
        Function.update unsubscribe.entries (aid, phoneOf val) (some (ascii "1"))
      else unsubscribe.entries := by
  unfold lambUnsubscribeLoop
  dsimp only
  split
  · exact Shards.view_put numberKey_injective unsubscribe.nodes (aid, phoneOf val) _
  · rfl

theorem lambCheckUnsubscribe_iff (cache : NumberCaches Bytes) (id : Int32) (number : Bytes) :
    lambCheckUnsubscribe cache id number = true ↔
      0 < phoneOf number ∧ (cache.entries (id, phoneOf number)).isSome = true := by
  unfold lambCheckUnsubscribe
  dsimp only
  split
  · next h => exact (and_iff_right h).symm
  · next h => exact iff_of_false Bool.false_ne_true fun hand => h hand.1

/-- A key exists if a string with the number was processed in the server of the account. -/
theorem entries_unsubscribeAll (n : Nat) (events : List (Int32 × Bytes)) (a : Int32)
    (phone : UInt64) (hphone : 0 < phone) :
    ((unsubscribeAll n events).entries (a, phone)).isSome = true ↔
      ∃ e ∈ events, e.1 = a ∧ phoneOf e.2 = phone := by
  induction events using List.reverseRecOn with
  | nil => exact iff_of_false Bool.false_ne_true fun ⟨_, h, _⟩ => List.not_mem_nil h
  | append_singleton events e ih =>
    have hrun : unsubscribeAll n (events ++ [e]) =
        lambUnsubscribeLoop (unsubscribeAll n events) e.1 e.2 := List.foldl_concat ..
    have hsplit : (∃ e' ∈ events ++ [e], e'.1 = a ∧ phoneOf e'.2 = phone) ↔
        (∃ e' ∈ events, e'.1 = a ∧ phoneOf e'.2 = phone) ∨ e.1 = a ∧ phoneOf e.2 = phone := by
      simp only [List.mem_append, List.mem_singleton, or_and_right, exists_or, exists_eq_left]
    rw [hrun, entries_lambUnsubscribeLoop, hsplit, ← ih]
    by_cases hnew : e.1 = a ∧ phoneOf e.2 = phone
    · have hpos : 0 < phoneOf e.2 := hnew.2 ▸ hphone
      rw [if_pos hpos, hnew.1, hnew.2, Function.update_self]
      exact iff_of_true rfl (.inr ⟨hnew.1 ▸ rfl, rfl⟩)
    · have hother : (a, phone) ≠ (e.1, phoneOf e.2) := by
        intro h
        obtain ⟨ha, hp⟩ := Prod.mk.inj h
        exact hnew ⟨ha.symm, hp.symm⟩
      split
      · rw [Function.update_of_ne hother]
        exact (or_iff_left hnew).symm
      · exact (or_iff_left hnew).symm

/-- A check finds a number if and only if the server of the account has processed a string with
the same number, which is not zero: whatever the other servers have processed, and for any
number of nodes. -/
theorem unsubscribed_iff (n : Nat) (events : List (Int32 × Bytes)) (a : Int32) (s : Bytes) :
    lambCheckUnsubscribe (unsubscribeAll n events) a s = true ↔
      atol s ≠ 0 ∧ ∃ e ∈ events, e.1 = a ∧ atol e.2 = atol s := by
  rw [lambCheckUnsubscribe_iff, phoneOf_pos_iff]
  apply and_congr_right
  intro hs
  rw [entries_unsubscribeAll n events a _ ((phoneOf_pos_iff s).mpr hs)]
  simp only [phoneOf_eq_iff]

end LambGateway.Server
