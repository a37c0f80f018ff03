import LambGateway.Framework.Decimal
import LambGateway.Framework.ShardedStore
import LambGateway.Server.WorkLoop

/-!
# The servers' statistics

A server writes its counters into its hash, and the console reads them back to show them. The
two programs agree on the order of eight names.
-/

namespace LambGateway.Console

open Framework
open Server (LambStatus)

/-- `lamb_server_statistics_t` -/
@[ext]
structure ServerStatistics where
  store : Int64
  bill : Int64
  blk : Int64
  usb : Int64
  limt : Int64
  rejt : Int64
  tmp : Int64
  key : Int64
  deriving DecidableEq

def ServerStatistics.zero : ServerStatistics := ⟨0, 0, 0, 0, 0, 0, 0, 0⟩

/-- `server.%d` -/
def serverKey (id : Int32) : Bytes := ascii "server." ++ decimalInt id.toInt

/-- `%lld` of an `unsigned long long` -/
def counterText (n : UInt64) : Bytes := decimalInt n.toInt64.toInt

/-- The fields and values of the command that `lamb_sync_status` sends. -/
def statusFields (stat : LambStatus) (store bill : Int32) : List (Bytes × Bytes) :=
  [(ascii "store", decimalInt store.toInt), (ascii "bill", decimalInt bill.toInt),
    (ascii "blk", counterText stat.blk), (ascii "usb", counterText stat.usb),
    (ascii "limt", counterText stat.limt), (ascii "rejt", counterText stat.rejt),
    (ascii "tmp", counterText stat.tmp), (ascii "key", counterText stat.key)]

/-- `lamb_sync_status` -/
def lambSyncStatus (cache : RedisNode) (id : Int32) (stat : LambStatus) (store bill : Int32) :
    RedisNode :=
  Function.update cache (serverKey id)
    (some (hmset (cache (serverKey id)) (statusFields stat store bill)))

/-- `str ? atol(str) : 0` -/
def elementValue (str : Option Bytes) : Int64 := str.elim 0 atol

/-- The assignments for a reply: the eighth element goes into `blk` as the third does. -/
def readElements (stat : ServerStatistics) : List (Option Bytes) → ServerStatistics
  | [store, bill, blk, usb, limt, rejt, tmp, key] =>
    let stat :=
      { stat with
        store := elementValue store
        bill := elementValue bill
        blk := elementValue blk
        usb := elementValue usb
        limt := elementValue limt
        rejt := elementValue rejt
        tmp := elementValue tmp }
    { stat with blk := elementValue key }
  | _ => stat

/-- `lamb_server_statistics` -/
def lambServerStatistics (cache : RedisNode) (id : Int32) (stat : ServerStatistics) :
    ServerStatistics :=
  if id < 1 then stat
  else
    readElements stat (hmget (cache (serverKey id))
      (["store", "bill", "blk", "usb", "limt", "rejt", "tmp", "key"].map ascii))

/-- The record that `lamb_show_server` prints for a server. -/
def lambShowServer (cache : RedisNode) (id : Int32) : ServerStatistics :=
  lambServerStatistics cache id .zero

/-- What a server's counters are as `long`. -/
def written (stat : LambStatus) (store bill : Int32) : ServerStatistics where
  store := store.toInt64
  bill := bill.toInt64
  blk := stat.blk.toInt64
  usb := stat.usb.toInt64
  limt := stat.limt.toInt64
  rejt := stat.rejt.toInt64
  tmp := stat.tmp.toInt64
  key := stat.key.toInt64

theorem serverKey_injective : Function.Injective serverKey :=
  append_decimalInt_injective (ascii "server.")

/-- What is shown of another server does not change. -/
theorem lambServerStatistics_other (cache : RedisNode) {id other : Int32} (hne : other ≠ id)
    (status : LambStatus) (store bill : Int32) (stat : ServerStatistics) :
    lambServerStatistics (lambSyncStatus cache id status store bill) other stat =
      lambServerStatistics cache other stat := by
  have hkey : serverKey other ≠ serverKey id := fun h => hne (serverKey_injective h)
  rw [lambServerStatistics, lambSyncStatus, Function.update_of_ne hkey]
  rfl

theorem elementValue_counterText (n : UInt64) :
    elementValue (some (counterText n)) = n.toInt64 :=
  atol_decimalInt n.toInt64

theorem elementValue_decimalInt (n : Int32) :
    elementValue (some (decimalInt n.toInt)) = n.toInt64 :=
  atol_decimalInt_int32 n

/-- What the console reads after a server has written: the count of `key` stands in `blk`, and
`key` is left as it was. -/
theorem lambServerStatistics_lambSyncStatus (cache : RedisNode) {id : Int32} (hid : 1 ≤ id)
    (status : LambStatus) (store bill : Int32) (stat : ServerStatistics) :
    lambServerStatistics (lambSyncStatus cache id status store bill) id stat =
      { written status store bill with blk := status.key.toInt64, key := stat.key } := by
  have hnames : ((statusFields status store bill).map Prod.fst).Nodup := by
    change (["store", "bill", "blk", "usb", "limt", "rejt", "tmp", "key"].map ascii).Nodup
    decide
  have hread := hmget_hmset (cache (serverKey id)) hnames
  have hnot : ¬ id < 1 := Int32.not_lt.mpr hid
  rw [lambServerStatistics, if_neg hnot, lambSyncStatus, Function.update_self]
  change readElements stat (hmget _ ((statusFields status store bill).map Prod.fst)) = _
  rw [hread]
  simp only [statusFields, List.map_cons, List.map_nil, readElements, elementValue_counterText,
    elementValue_decimalInt, written]

/-- The record shown for a server is what the server has written if and only if nothing was
counted under `blk` and `key`. -/
theorem shown_as_written_iff (cache : RedisNode) (id : Int32) (hid : 1 ≤ id)
    (status : LambStatus) (store bill : Int32) :
    lambShowServer (lambSyncStatus cache id status store bill) id = written status store bill ↔
      status.blk = 0 ∧ status.key = 0 := by
  have hinj {m n : UInt64} (h : m.toInt64 = n.toInt64) : m = n := congrArg Int64.toUInt64 h
  rw [lambShowServer, lambServerStatistics_lambSyncStatus cache hid]
  constructor
  · intro h
    have hblk : status.key.toInt64 = status.blk.toInt64 := congrArg ServerStatistics.blk h
    have hkey : (0 : Int64) = status.key.toInt64 := congrArg ServerStatistics.key h
    have hzero : status.key = 0 := hinj hkey.symm
    exact ⟨(hinj hblk).symm.trans hzero, hzero⟩
  · intro ⟨hblk, hkey⟩
    simp only [written, hblk, hkey]
    rfl

/-- No message was turned away for the blacklist or for a keyword. -/
theorem shown_as_written_quiet :
    lambShowServer (lambSyncStatus (fun _ => none) 3 ⟨9, 4, 0, 0, 0, 0, 2, 1, 0, 1, 0⟩ 6 7) 3 =
      ⟨6, 7, 0, 2, 1, 0, 1, 0⟩ :=
  (shown_as_written_iff (fun _ => none) 3 (by decide) ⟨9, 4, 0, 0, 0, 0, 2, 1, 0, 1, 0⟩ 6 7).mpr
    ⟨rfl, rfl⟩

/-- Five messages were turned away for the blacklist and two for a keyword: the console shows two
and none. -/
theorem key_shown_as_blk :
    ¬ ∀ (cache : RedisNode) (id : Int32), 1 ≤ id → ∀ (status : LambStatus) (store bill : Int32),
      lambShowServer (lambSyncStatus cache id status store bill) id =
        written status store bill := by
  intro h
  have hid : (1 : Int32) ≤ 3 := by decide
  have hshown := h (fun _ => none) 3 hid ⟨9, 2, 0, 0, 0, 5, 0, 0, 0, 0, 2⟩ 0 0
  rw [lambShowServer, lambServerStatistics_lambSyncStatus _ hid] at hshown
  have hblk : (2 : UInt64).toInt64 = (5 : UInt64).toInt64 := congrArg ServerStatistics.blk hshown
  exact absurd hblk (by decide)

end LambGateway.Console
